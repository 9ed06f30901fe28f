import Iperf2.Lib.Chain
import Iperf2.Lib.Transition
import Mathlib.Data.List.Perm.Basic
import Mathlib.Data.List.Range

/-!
# The job queue of the reporter

Traffic threads post reports to a pending list. The reporter puts the pending list in front of its own list at the start
of every pass (`reporter_jobq_set_root`), and a pass of `reporter_spawn` takes a finished report out of the list through
an indirect pointer, when the memory of the report is gone already.

* `Jobs` : the queue as lists of jobs; `Jobs.Whole`, every job is in one of them, `Jobs.order_of_reachable`;
* `Jobq` : the queue in memory, between PostReport calls of any threads and the statements of a pass. The memory of a
  finished report may be written by anybody and posted again;
* `Represents` : the links of the lists, at every statement of a pass; `step_simulates`;
* `jobq_conservation` : no job is lost, processed again after it finished, or moved before another one.
-/

namespace Iperf2.Report
open Transition Chain

/-! ## The queue as lists -/

/-- The jobs that wait, those of the reporter and those that are finished. Jobs are numbered as they are posted. -/
structure Jobs where
  pending : List Nat
  root : List Nat
  finished : List Nat
  posted : Nat

inductive JobsEvent
  | post
  | setRoot
  | process (job : Nat) (done : Bool)

namespace Jobs

def empty : Jobs := ⟨[], [], [], 0⟩

def step (q : Jobs) : JobsEvent → Option Jobs
  | .post => some { q with
      pending := q.pending ++ [q.posted]
      posted := q.posted + 1 }
  | .setRoot => some { q with
      pending := []
      root := q.pending ++ q.root }
  | .process job done =>
    if job ∈ q.root then
      if done then
        some { q with
          root := q.root.erase job
          finished := q.finished ++ [job] }
      else some q
    else none

/-- Every posted job is in one of the lists, once. -/
def Whole (q : Jobs) : Prop := (q.pending ++ q.root ++ q.finished).Perm (List.range q.posted)

variable {q q' : Jobs} {e : JobsEvent}

theorem Whole.nodup (h : q.Whole) : (q.pending ++ q.root ++ q.finished).Nodup :=
  h.nodup_iff.mpr List.nodup_range

theorem Whole.root_nodup (h : q.Whole) : q.root.Nodup :=
  (List.nodup_append.mp (List.nodup_append.mp h.nodup).1).2.1

theorem Whole.not_pending (h : q.Whole) {job : Nat} (hjob : job ∈ q.root) : job ∉ q.pending :=
  fun hpending => (List.nodup_append.mp (List.nodup_append.mp h.nodup).1).2.2 job hpending job hjob rfl

theorem Whole.not_finished (h : q.Whole) {job : Nat} (hjob : job ∈ q.root) : job ∉ q.finished :=
  fun hfinished => (List.nodup_append.mp h.nodup).2.2 job (List.mem_append_right q.pending hjob) job hfinished rfl

theorem Whole.lt_posted (h : q.Whole) {job : Nat} (hjob : job ∈ q.root) : job < q.posted := by
  apply List.mem_range.mp
  apply h.mem_iff.mp
  exact List.mem_append_left _ (List.mem_append_right _ hjob)

theorem Whole.next (h : q.Whole) (hstep : q.step e = some q') : q'.Whole := by
  cases e with
  | post =>
    obtain rfl := Option.some.inj hstep
    have hback : ([q.posted] ++ (q.root ++ q.finished)).Perm (q.root ++ q.finished ++ [q.posted]) :=
      List.perm_append_comm
    have hmove : (q.pending ++ [q.posted] ++ q.root ++ q.finished).Perm
        (q.pending ++ q.root ++ q.finished ++ [q.posted]) := by
      have hall := hback.append_left q.pending
      simp only [List.append_assoc] at hall ⊢
      exact hall
    rw [Whole, List.range_succ]
    exact hmove.trans (h.append_right [q.posted])
  | setRoot =>
    obtain rfl := Option.some.inj hstep
    simpa only [Whole, List.nil_append] using h
  | process job done =>
    simp only [step] at hstep
    split_ifs at hstep with hjob hdone
    · obtain rfl := Option.some.inj hstep
      have hmove : (q.root.erase job ++ (q.finished ++ [job])).Perm (q.root ++ q.finished) := by
        rw [← List.append_assoc]
        refine List.perm_append_comm.trans ?_
        exact (List.perm_cons_erase hjob).symm.append_right q.finished
      have hall : (q.pending ++ q.root.erase job ++ (q.finished ++ [job])).Perm
          (q.pending ++ q.root ++ q.finished) := by
        rw [List.append_assoc, List.append_assoc]
        exact hmove.append_left q.pending
      exact hall.trans h
    · obtain rfl := Option.some.inj hstep
      exact h

theorem whole_of_reachable (hq : q.Whole) (h : Reachable step Any q q') : q'.Whole :=
  h.invariant hq fun _ _ _ hq _ hstep => hq.next hstep

/-- Jobs that are in both lists have the same order. -/
def SameOrder (root root' : List Nat) : Prop :=
  ∀ job job', [job, job'].Sublist root → job ∈ root' → job' ∈ root' → [job, job'].Sublist root'

/-- What a run leaves of the list of the reporter: no job comes back to it, and those that stay keep their order. -/
structure Kept (q q' : Jobs) : Prop where
  whole : q'.Whole
  pending : ∀ job ∈ q.root, job ∉ q'.pending
  order : SameOrder q.root q'.root
  finished : ∀ job ∈ q.finished, job ∈ q'.finished

theorem Kept.next {s : Jobs} (h : Kept s q) (hs : s.Whole) (hposted : s.posted ≤ q.posted) (hstep : q.step e = some q') :
    Kept s q' := by
  have hwhole := h.whole.next hstep
  cases e with
  | post =>
    obtain rfl := Option.some.inj hstep
    refine ⟨hwhole, fun job hjob hpending => ?_, h.order, h.finished⟩
    rcases List.mem_append.mp hpending with hpending | hnew
    · exact h.pending job hjob hpending
    · -- a job of the list was posted before
      have hlt := hs.lt_posted hjob
      rw [List.mem_singleton.mp hnew] at hlt
      omega
  | setRoot =>
    obtain rfl := Option.some.inj hstep
    refine ⟨hwhole, fun job hjob => List.not_mem_nil, fun job job' hsub hjob hjob' => ?_, h.finished⟩
    have hin : ∀ j ∈ s.root, j ∈ q.pending ++ q.root → j ∈ q.root := fun j hj hmem =>
      (List.mem_append.mp hmem).resolve_left (h.pending j hj)
    apply List.sublist_append_of_sublist_right
    apply h.order job job' hsub
    · exact hin job (hsub.subset List.mem_cons_self) hjob
    · exact hin job' (hsub.subset (List.mem_cons_of_mem _ List.mem_cons_self)) hjob'
  | process done job =>
    simp only [step] at hstep
    split_ifs at hstep with hmem hdone
    · obtain rfl := Option.some.inj hstep
      refine ⟨hwhole, h.pending, fun j j' hsub hj hj' => ?_,
        fun j hj => List.mem_append_left _ (h.finished j hj)⟩
      have hboth := h.order j j' hsub (List.mem_of_mem_erase hj) (List.mem_of_mem_erase hj')
      have hne := ((h.whole.root_nodup.mem_erase_iff).mp hj).1
      have hne' := ((h.whole.root_nodup.mem_erase_iff).mp hj').1
      have herase := hboth.erase done
      rwa [List.erase_cons_tail (by simpa using hne), List.erase_cons_tail (by simpa using hne'),
        List.erase_nil] at herase
    · obtain rfl := Option.some.inj hstep
      exact h

theorem posted_le (hstep : q.step e = some q') : q.posted ≤ q'.posted := by
  cases e with
  | post =>
    obtain rfl := Option.some.inj hstep
    exact Nat.le_succ _
  | setRoot =>
    obtain rfl := Option.some.inj hstep
    exact le_rfl
  | process job done =>
    simp only [step] at hstep
    split_ifs at hstep <;> obtain rfl := Option.some.inj hstep <;> exact le_rfl

/-- The order of the list is kept over whole runs. -/
theorem kept_of_reachable (hq : q.Whole) (h : Reachable step Any q q') : Kept q q' := by
  have hboth : Kept q q' ∧ q.posted ≤ q'.posted := by
    apply h.invariant
    · exact ⟨⟨hq, fun job => hq.not_pending, fun _ _ hsub _ _ => hsub, fun _ hjob => hjob⟩, le_rfl⟩
    · exact fun _ _ _ ⟨hkept, hposted⟩ _ hstep =>
        ⟨hkept.next hq hposted hstep, hposted.trans (posted_le hstep)⟩
  exact hboth.1

end Jobs

/-! ## The queue in memory -/

/-- The address of a report header that is not `NULL`. -/
abbrev Ptr := Nat

/-- Where the reporter is in `reporter_spawn`. -/
inductive ReporterPc
  | setRoot
  /-- The test of the number of threads, after an empty list. -/
  | threads
  | loop (workItem : Slot Ptr)
  | process (workItem : Slot Ptr) (tmp : Option Ptr)
  | remove (workItem : Slot Ptr) (tmp : Option Ptr)
  | advance (workItem : Slot Ptr)
  | done
  deriving DecidableEq

/-- The links of the headers, the globals, and where the reporter is. A posted report that did not finish is `live`;
`job` is its number. A `NULL` pointer that is followed is a `fault`. -/
structure Jobq where
  next : Ptr → Option Ptr
  reportRoot : Option Ptr
  reportPendingHead : Option Ptr
  reportPendingTail : Option Ptr
  pc : ReporterPc
  fault : Bool
  live : Ptr → Bool
  job : Ptr → Nat
  posted : Nat
  processed : List Nat
  finished : List Nat

def Jobq.init (next : Ptr → Option Ptr) : Jobq where
  next
  reportRoot := none
  reportPendingHead := none
  reportPendingTail := none
  pc := .setRoot
  fault := false
  live := fun _ => false
  job := fun _ => 0
  posted := 0
  processed := []
  finished := []

/-- `PostReport`, under the lock. -/
def postReport (s : Jobq) (reporthdr : Ptr) : Jobq :=
  let next := Function.update s.next reporthdr none
  let s := { s with
    next
    live := Function.update s.live reporthdr true
    job := Function.update s.job reporthdr s.posted
    posted := s.posted + 1 }
  match s.reportPendingHead with
  | none =>
    { s with
      reportPendingHead := some reporthdr
      reportPendingTail := some reporthdr }
  | some _ =>
    match s.reportPendingTail with
    | none => { s with fault := true }
    | some tail =>
      { s with
        next := Function.update next tail (some reporthdr)
        reportPendingTail := some reporthdr }

/-- `reporter_jobq_set_root`, under the lock, after a wait that it may make. -/
def reporterJobqSetRoot (s : Jobq) : Jobq :=
  match s.reportPendingHead with
  | none => s
  | some _ =>
    match s.reportPendingTail with
    | none => { s with fault := true }
    | some tail =>
      { s with
        next := Function.update s.next tail s.reportRoot
        reportRoot := s.reportPendingHead
        reportPendingHead := none
        reportPendingTail := none }

inductive JobqEvent
  /-- A traffic thread posts a report in memory that no other posted report has. -/
  | post (reporthdr : Ptr)
  /-- Memory that belongs to no posted report is written by its next owner. -/
  | write (p : Ptr) (link : Option Ptr)
  /-- The reporter does its next statement. -/
  | statement
  /-- `thread_numuserthreads() > 1` -/
  | threads (more : Bool)
  /-- `reporter_process_report` returns. -/
  | process (done : Bool)

/-- `*work_item` -/
def Jobq.load (s : Jobq) (workItem : Slot Ptr) : Option Ptr := workItem.load s.reportRoot s.next

/-- A statement of a pass. -/
def Jobq.statement (s : Jobq) : Option Jobq :=
  match s.pc with
  | .setRoot =>
    let s := reporterJobqSetRoot s
    some { s with pc := if s.reportRoot.isSome then .loop .head else .threads }
  | .loop workItem =>
    match s.load workItem with
    | none => some { s with pc := .setRoot }
    | some p => some { s with pc := .process workItem (s.next p) }
  | .remove workItem tmp =>
    -- memory for *work_item is gone by now
    some { s with
      reportRoot := workItem.storeHead s.reportRoot tmp
      next := workItem.storeNext s.next tmp
      pc := if tmp.isSome then .advance workItem else .setRoot }
  | .advance workItem =>
    match s.load workItem with
    | none => some { s with fault := true }
    | some p => some { s with pc := .loop (.next p) }
  | _ => none

/-- `reporter_process_report(*work_item)` -/
def Jobq.process (s : Jobq) (done : Bool) : Option Jobq :=
  match s.pc with
  | .process workItem tmp =>
    match s.load workItem with
    | none => some { s with fault := true }
    | some p =>
      let s := { s with processed := s.processed ++ [s.job p] }
      if done then
        some { s with
          live := Function.update s.live p false
          finished := s.finished ++ [s.job p]
          pc := .remove workItem tmp }
      else some { s with pc := .advance workItem }
  | _ => none

def Jobq.step (s : Jobq) : JobqEvent → Option Jobq
  | .post reporthdr => if s.live reporthdr then none else some (postReport s reporthdr)
  | .write p link => if s.live p then none else some { s with next := Function.update s.next p link }
  | .statement => s.statement
  | .threads more =>
    if s.pc = .threads then some { s with pc := if more then .setRoot else .done } else none
  | .process done => s.process done

/-! ## The lists in memory -/

/-- The reports of the list of the reporter, at each statement of a pass: where the work item points to, and between the
end of a report and its removal the rest of the list in the cached pointer. -/
def RootList (s : Jobq) (root : List Ptr) : Prop :=
  match s.pc with
  | .loop workItem =>
    Path s.next s.reportRoot root none ∧ ∃ before rest, root = before ++ rest ∧ workItem = Slot.after before
  | .process workItem tmp =>
    Path s.next s.reportRoot root none ∧
      ∃ before p rest, root = before ++ p :: rest ∧ workItem = Slot.after before ∧ tmp = s.next p
  | .remove workItem tmp =>
    ∃ before rest b, root = before ++ rest ∧ workItem = Slot.after before ∧ Path s.next s.reportRoot before b ∧
      Path s.next tmp rest none
  | .advance workItem =>
    Path s.next s.reportRoot root none ∧
      ∃ before p rest, root = before ++ p :: rest ∧ workItem = Slot.after before
  | _ => Path s.next s.reportRoot root none

/-- The two lists in memory. -/
structure Lists (s : Jobq) (waiting root : List Ptr) : Prop where
  waits : Path s.next s.reportPendingHead waiting none
  tail : s.reportPendingTail = waiting.getLast?
  shape : RootList s root
  nodup : (waiting ++ root).Nodup
  live : ∀ p, s.live p = true ↔ p ∈ waiting ++ root
  fault : s.fault = false

/-- The queue in memory is this queue of jobs. -/
def Represents (s : Jobq) (q : Jobs) : Prop :=
  ∃ waiting root, Lists s waiting root ∧ q.pending = waiting.map s.job ∧ q.root = root.map s.job ∧
    q.finished = s.finished ∧ q.posted = s.posted

section
variable {s s' : Jobq} {waiting root : List Ptr} {q : Jobs}

/-- The list is the same when nothing that it depends on is written. -/
theorem RootList.congr (h : RootList s root) (hnext : ∀ p ∈ root, s'.next p = s.next p)
    (hroot : s'.reportRoot = s.reportRoot) (hpc : s'.pc = s.pc) : RootList s' root := by
  unfold RootList at h ⊢
  rw [hpc, hroot]
  cases hcase : s.pc with
  | setRoot | threads | done =>
    rw [hcase] at h
    exact Path.congr h hnext
  | loop workItem | advance workItem =>
    rw [hcase] at h
    exact ⟨Path.congr h.1 hnext, h.2⟩
  | process workItem tmp =>
    rw [hcase] at h
    obtain ⟨hpath, before, p, rest, rfl, hitem, htmp⟩ := h
    refine ⟨Path.congr hpath hnext, before, p, rest, rfl, hitem, ?_⟩
    rw [htmp, hnext p (List.mem_append_right before List.mem_cons_self)]
  | remove workItem tmp =>
    rw [hcase] at h
    obtain ⟨before, rest, b, rfl, hitem, hbefore, hrest⟩ := h
    refine ⟨before, rest, b, rfl, hitem, ?_, ?_⟩
    · exact hbefore.congr fun p hp => hnext p (List.mem_append_left rest hp)
    · exact hrest.congr fun p hp => hnext p (List.mem_append_right before hp)

/-- Memory that belongs to no posted report is not part of the lists. -/
theorem Lists.free (h : Lists s waiting root) {p : Ptr} (hp : s.live p = false) : p ∉ waiting ∧ p ∉ root := by
  have hnot : p ∉ waiting ++ root := fun hmem => by
    rw [(h.live p).mpr hmem] at hp
    cases hp
  rwa [List.mem_append, not_or] at hnot

/-- Such memory may be written. -/
theorem Lists.write (h : Lists s waiting root) {p : Ptr} (hp : s.live p = false) (link : Option Ptr) :
    Lists { s with next := Function.update s.next p link } waiting root := by
  have hnot := h.free hp
  refine ⟨h.waits.update hnot.1, h.tail, h.shape.congr (fun r hr => ?_) rfl rfl, h.nodup, h.live, h.fault⟩
  apply Function.update_of_ne
  rintro rfl
  exact hnot.2 hr

/-- The globals say whether somebody waits, and who is the last one. -/
theorem Lists.tail_cases (h : Lists s waiting root) :
    waiting = [] ∧ s.reportPendingHead = none ∨
      ∃ front last p, waiting = front ++ [last] ∧ s.reportPendingHead = some p ∧ s.reportPendingTail = some last ∧
        last ∉ front ∧ last ∉ root := by
  rcases List.eq_nil_or_concat' waiting with rfl | ⟨front, last, rfl⟩
  · exact .inl ⟨rfl, h.waits⟩
  · right
    have hnodup := List.nodup_append.mp h.nodup
    obtain ⟨p, hhead⟩ : ∃ p, s.reportPendingHead = some p := by
      cases front with
      | nil => exact ⟨last, h.waits.1⟩
      | cons p front => exact ⟨p, h.waits.1⟩
    refine ⟨front, last, p, rfl, hhead, ?_, fun hmem => ?_, fun hmem => ?_⟩
    · rw [h.tail]
      simp
    · exact (List.nodup_append.mp hnodup.1).2.2 last hmem last (List.mem_singleton_self last) rfl
    · exact hnodup.2.2 last (List.mem_append_right _ (List.mem_singleton_self last)) last hmem rfl

/-! ## The steps -/

/-- A posted report is the last one of those that wait. -/
theorem Lists.post (h : Lists s waiting root) {reporthdr : Ptr} (hfree : s.live reporthdr = false) :
    Lists (postReport s reporthdr) (waiting ++ [reporthdr]) root := by
  have hnot := h.free hfree
  have hcleared : Path (Function.update s.next reporthdr none) s.reportPendingHead waiting none :=
    (h.write hfree none).waits
  have hnodup : (waiting ++ [reporthdr] ++ root).Nodup := by
    have hcons : (reporthdr :: (waiting ++ root)).Nodup := by
      rw [List.nodup_cons, List.mem_append, not_or]
      exact ⟨hnot, h.nodup⟩
    rw [List.append_assoc]
    exact (List.perm_middle.nodup_iff).mpr hcons
  have hlive : ∀ p, Function.update s.live reporthdr true p = true ↔ p ∈ waiting ++ [reporthdr] ++ root := by
    intro p
    by_cases hp : p = reporthdr
    · subst hp
      simp
    · rw [Function.update_of_ne hp, h.live]
      simp [hp]
  have hroot : ∀ p ∈ root, Function.update s.next reporthdr none p = s.next p := by
    intro p hp
    apply Function.update_of_ne
    rintro rfl
    exact hnot.2 hp
  unfold postReport
  rcases h.tail_cases with ⟨rfl, hhead⟩ | ⟨front, last, p, rfl, hhead, htail, hfront, hlast⟩
  · simp only [hhead]
    refine ⟨⟨rfl, ?_⟩, rfl, h.shape.congr hroot rfl rfl, hnodup, hlive, h.fault⟩
    exact Function.update_self reporthdr none s.next
  · simp only [hhead, htail]
    have hne : reporthdr ≠ last := by
      rintro rfl
      exact hnot.1 (List.mem_append_right _ (List.mem_singleton_self _))
    refine ⟨?_, by simp, h.shape.congr (fun r hr => ?_) rfl rfl, hnodup, hlive, h.fault⟩
    · rw [path_concat, ← hhead]
      refine ⟨hcleared.relink hfront, ?_⟩
      exact (Function.update_of_ne hne _ _).trans (Function.update_self _ _ _)
    · have hother : r ≠ last := fun heq => hlast (heq ▸ hr)
      exact (Function.update_of_ne hother _ _).trans (hroot r hr)

/-- The pending list comes in front of the list of the reporter. -/
theorem Lists.setRoot (h : Lists s waiting root) (hpc : s.pc = .setRoot) :
    let after := reporterJobqSetRoot s
    Path after.next after.reportRoot (waiting ++ root) none ∧ after.reportPendingHead = none ∧
      after.reportPendingTail = none ∧ after.live = s.live ∧ after.fault = false ∧ after.job = s.job ∧
      after.posted = s.posted ∧ after.finished = s.finished := by
  have hroot : Path s.next s.reportRoot root none := by
    have hshape := h.shape
    rw [RootList, hpc] at hshape
    exact hshape
  rcases h.tail_cases with ⟨rfl, hhead⟩ | ⟨front, last, p, rfl, hhead, htail, hfront, hlast⟩
  · have hafter : reporterJobqSetRoot s = s := by
      unfold reporterJobqSetRoot
      rw [hhead]
    rw [hafter]
    exact ⟨hroot, hhead, h.tail, rfl, h.fault, rfl, rfl, rfl⟩
  · have hafter : reporterJobqSetRoot s =
        { s with
          next := Function.update s.next last s.reportRoot
          reportRoot := s.reportPendingHead
          reportPendingHead := none
          reportPendingTail := none } := by
      unfold reporterJobqSetRoot
      rw [hhead, htail]
    rw [hafter]
    refine ⟨path_append.mpr ⟨s.reportRoot, ?_, hroot.update hlast⟩, rfl, rfl, rfl, h.fault, rfl, rfl, rfl⟩
    exact h.waits.relink hfront

/-- What a step does to the jobs. -/
def Jobs.Steps (q q' : Jobs) : Prop := q' = q ∨ ∃ e, q.step e = some q'

theorem represents_statement (h : Represents s q) (hstep : s.statement = some s') :
    ∃ q', Represents s' q' ∧ Jobs.Steps q q' := by
  obtain ⟨waiting, root, hlists, hpending, hroot, hfinished, hposted⟩ := h
  have hshape := hlists.shape
  unfold RootList at hshape
  unfold Jobq.statement at hstep
  cases hpc : s.pc with
  | setRoot =>
    rw [hpc] at hstep
    obtain ⟨hpath, hhead, htail, hlive, hfault, hjob, hposted', hfinished'⟩ := hlists.setRoot hpc
    obtain rfl := Option.some.inj hstep
    refine ⟨_, ⟨[], waiting ++ root, ⟨hhead, htail, ?_, hlists.nodup, ?_, hfault⟩, rfl, ?_, ?_, ?_⟩,
      .inr ⟨.setRoot, rfl⟩⟩
    · unfold RootList
      simp only
      split_ifs with hsome
      · exact ⟨hpath, [], waiting ++ root, rfl, rfl⟩
      · exact hpath
    · intro p
      simp only
      rw [hlive]
      exact hlists.live p
    · simp only [hjob, hpending, hroot, List.map_append]
    · exact hfinished.trans hfinished'.symm
    · exact hposted.trans hposted'.symm
  | loop workItem =>
    rw [hpc] at hstep hshape
    obtain ⟨hpath, before, rest, rfl, rfl⟩ := hshape
    obtain ⟨b, hbefore, hrest⟩ := path_append.mp hpath
    have hload : s.load (.after before) = b := Slot.load_after hbefore
    simp only [hload] at hstep
    cases b with
    | none =>
      obtain rfl := Option.some.inj hstep
      exact ⟨q, ⟨waiting, before ++ rest, ⟨hlists.waits, hlists.tail, hpath, hlists.nodup, hlists.live, hlists.fault⟩,
        hpending, hroot, hfinished, hposted⟩, .inl rfl⟩
    | some p =>
      obtain rfl := Option.some.inj hstep
      obtain ⟨rest, rfl⟩ : ∃ rest', rest = p :: rest' := by
        cases rest with
        | nil => cases hrest
        | cons p' rest => exact ⟨rest, by rw [Option.some.inj hrest.1]⟩
      refine ⟨q, ⟨waiting, _, ⟨hlists.waits, hlists.tail, ?_, hlists.nodup, hlists.live, hlists.fault⟩,
        hpending, hroot, hfinished, hposted⟩, .inl rfl⟩
      exact ⟨hpath, before, p, rest, rfl, rfl, rfl⟩
  | remove workItem tmp =>
    rw [hpc] at hstep hshape
    obtain ⟨before, rest, b, rfl, rfl, hbefore, hrest⟩ := hshape
    obtain rfl := Option.some.inj hstep
    have hnodup := List.nodup_append.mp hlists.nodup
    have hnodup' := List.nodup_append.mp hnodup.2.1
    have hpath : Path ((Slot.after before).storeNext s.next tmp) ((Slot.after before).storeHead s.reportRoot tmp)
        (before ++ rest) none := by
      rw [path_append]
      refine ⟨tmp, Slot.path_store hbefore hnodup'.1, Slot.path_store_other hrest ?_⟩
      exact fun p hp hp' => hnodup'.2.2 p hp p hp' rfl
    have hwaits : Path ((Slot.after before).storeNext s.next tmp) s.reportPendingHead waiting none := by
      apply Slot.path_store_other hlists.waits
      exact fun p hp hp' => hnodup.2.2 p hp' p (List.mem_append_left rest hp) rfl
    refine ⟨q, ⟨waiting, _, ⟨hwaits, hlists.tail, ?_, hlists.nodup, hlists.live, hlists.fault⟩, hpending, hroot,
      hfinished, hposted⟩, .inl rfl⟩
    unfold RootList
    cases rest with
    | nil =>
      obtain rfl : tmp = none := hrest
      exact hpath
    | cons p rest =>
      obtain rfl : tmp = some p := hrest.1
      exact ⟨hpath, before, p, rest, rfl, rfl⟩
  | advance workItem =>
    rw [hpc] at hstep hshape
    obtain ⟨hpath, before, p, rest, rfl, rfl⟩ := hshape
    obtain ⟨b, hbefore, hrest⟩ := path_append.mp hpath
    have hload : s.load (.after before) = some p := (Slot.load_after hbefore).trans hrest.1
    simp only [hload] at hstep
    obtain rfl := Option.some.inj hstep
    refine ⟨q, ⟨waiting, _, ⟨hlists.waits, hlists.tail, ?_, hlists.nodup, hlists.live, hlists.fault⟩,
      hpending, hroot, hfinished, hposted⟩, .inl rfl⟩
    exact ⟨hpath, before ++ [p], rest, by simp, by simp⟩
  | threads | process workItem tmp | done =>
    rw [hpc] at hstep
    cases hstep

/-- The reporter processes a job of its list. -/
theorem represents_process (h : Represents s q) (hwhole : q.Whole) {done : Bool} (hstep : s.process done = some s') :
    ∃ job q', Represents s' q' ∧ q.step (.process job done) = some q' ∧ s'.processed = s.processed ++ [job] ∧
      s'.finished = if done then s.finished ++ [job] else s.finished := by
  obtain ⟨waiting, root, hlists, hpending, hroot, hfinished, hposted⟩ := h
  have hshape := hlists.shape
  unfold RootList at hshape
  unfold Jobq.process at hstep
  split at hstep
  · rename_i workItem tmp hpc
    rw [hpc] at hshape
    obtain ⟨hpath, before, p, rest, rfl, rfl, rfl⟩ := hshape
    obtain ⟨b, hbefore, hrest⟩ := path_append.mp hpath
    have hload : s.load (.after before) = some p := (Slot.load_after hbefore).trans hrest.1
    simp only [hload] at hstep
    have hmem : s.job p ∈ q.root := by
      rw [hroot]
      exact List.mem_map_of_mem (List.mem_append_right before List.mem_cons_self)
    cases done with
    | false =>
      obtain rfl := Option.some.inj hstep
      refine ⟨s.job p, q, ⟨waiting, _, ⟨hlists.waits, hlists.tail, ?_, hlists.nodup, hlists.live, hlists.fault⟩,
        hpending, hroot, hfinished, hposted⟩, ?_, rfl, rfl⟩
      · exact ⟨hpath, before, p, rest, rfl, rfl⟩
      · simp [Jobs.step, hmem]
    | true =>
      obtain rfl := Option.some.inj hstep
      have hmiddle : (waiting ++ (before ++ p :: rest)).Perm (p :: (waiting ++ (before ++ rest))) := by
        rw [← List.append_assoc, ← List.append_assoc]
        exact List.perm_middle
      have hcons := (hmiddle.nodup_iff).mp hlists.nodup
      rw [List.nodup_cons] at hcons
      have hlive : ∀ r, Function.update s.live p false r = true ↔ r ∈ waiting ++ (before ++ rest) := by
        intro r
        by_cases hr : r = p
        · subst hr
          rw [Function.update_self]
          exact ⟨fun hfalse => absurd hfalse Bool.false_ne_true, fun hin => absurd hin hcons.1⟩
        · rw [Function.update_of_ne hr, hlists.live, hmiddle.mem_iff, List.mem_cons]
          exact or_iff_right hr
      have herase : q.root.erase (s.job p) = (before ++ rest).map s.job := by
        have hnodup := hwhole.root_nodup
        rw [hroot, List.map_append, List.map_cons] at hnodup ⊢
        have hnot : s.job p ∉ before.map s.job := fun hin =>
          (List.nodup_append.mp hnodup).2.2 _ hin _ List.mem_cons_self rfl
        rw [List.erase_append_right _ hnot, List.erase_cons_head, List.map_append]
      let q' : Jobs := { q with
        root := q.root.erase (s.job p)
        finished := q.finished ++ [s.job p] }
      refine ⟨s.job p, q', ⟨waiting, before ++ rest, ⟨hlists.waits, hlists.tail, ?_, hcons.2, hlive, hlists.fault⟩,
        hpending, herase, congrArg (· ++ [s.job p]) hfinished, hposted⟩, ?_, rfl, rfl⟩
      · exact ⟨before, rest, some p, rfl, rfl, by rw [← hrest.1]; exact hbefore, hrest.2⟩
      · simp only [Jobs.step, if_pos hmem, if_true, q']
  · cases hstep

theorem represents_post (h : Represents s q) {reporthdr : Ptr} (hfree : s.live reporthdr = false) :
    ∃ q', Represents (postReport s reporthdr) q' ∧ Jobs.Steps q q' := by
  obtain ⟨waiting, root, hlists, hpending, hroot, hfinished, hposted⟩ := h
  have hnot := hlists.free hfree
  have hafter : (postReport s reporthdr).job = Function.update s.job reporthdr s.posted ∧
      (postReport s reporthdr).finished = s.finished ∧ (postReport s reporthdr).posted = s.posted + 1 := by
    unfold postReport
    cases s.reportPendingHead with
    | none => exact ⟨rfl, rfl, rfl⟩
    | some p => cases s.reportPendingTail <;> exact ⟨rfl, rfl, rfl⟩
  have hsame : ∀ l : List Ptr, reporthdr ∉ l → l.map (Function.update s.job reporthdr s.posted) = l.map s.job := by
    intro l hl
    apply List.map_congr_left
    intro p hp
    apply Function.update_of_ne
    rintro rfl
    exact hl hp
  refine ⟨_, ⟨waiting ++ [reporthdr], root, hlists.post hfree, ?_, ?_, ?_, ?_⟩, .inr ⟨.post, rfl⟩⟩
  · simp only [hafter.1, List.map_append, hsame waiting hnot.1, List.map_cons, Function.update_self, List.map_nil,
      hpending, hposted]
  · simp only [hafter.1, hsame root hnot.2, hroot]
  · simp only [hafter.2.1, hfinished]
  · simp only [hafter.2.2, hposted]

/-- **Every step in memory is a step of the jobs, or none.** -/
theorem represents_step (h : Represents s q) (hwhole : q.Whole) {e : JobqEvent} (hstep : s.step e = some s') :
    ∃ q', Represents s' q' ∧ Jobs.Steps q q' := by
  cases e with
  | post reporthdr =>
    simp only [Jobq.step] at hstep
    split_ifs at hstep with hlive
    obtain rfl := Option.some.inj hstep
    exact represents_post h (Bool.eq_false_iff.mpr hlive)
  | write p link =>
    simp only [Jobq.step] at hstep
    split_ifs at hstep with hlive
    obtain rfl := Option.some.inj hstep
    obtain ⟨waiting, root, hlists, hjobs⟩ := h
    exact ⟨q, ⟨waiting, root, hlists.write (Bool.eq_false_iff.mpr hlive) link, hjobs⟩, .inl rfl⟩
  | statement => exact represents_statement h hstep
  | threads more =>
    simp only [Jobq.step] at hstep
    by_cases hpc : s.pc = .threads
    · rw [if_pos hpc] at hstep
      obtain rfl := Option.some.inj hstep
      obtain ⟨waiting, root, hlists, hjobs⟩ := h
      have hshape := hlists.shape
      rw [RootList, hpc] at hshape
      refine ⟨q, ⟨waiting, root, ⟨hlists.waits, hlists.tail, ?_, hlists.nodup, hlists.live, hlists.fault⟩, hjobs⟩,
        .inl rfl⟩
      cases more <;> exact hshape
    · rw [if_neg hpc] at hstep
      cases hstep
  | process done =>
    obtain ⟨job, q', hq', hprocess, -⟩ := represents_process h hwhole hstep
    exact ⟨q', hq', .inr ⟨_, hprocess⟩⟩

theorem init_represents (next : Ptr → Option Ptr) : Represents (.init next) .empty :=
  ⟨[], [], ⟨rfl, rfl, rfl, List.nodup_nil, by simp [Jobq.init], rfl⟩, rfl, rfl, rfl, rfl⟩

theorem Represents.finished (h : Represents s q) : q.finished = s.finished := by
  obtain ⟨waiting, root, -, -, -, hfinished, -⟩ := h
  exact hfinished

/-- Runs of the queue in memory are runs of the jobs. -/
theorem represents_of_reachable {s₀ : Jobq} {q₀ : Jobs} (h₀ : Represents s₀ q₀) (hwhole : q₀.Whole)
    (h : Reachable Jobq.step Any s₀ s) : ∃ q, Reachable Jobs.step Any q₀ q ∧ Represents s q := by
  have hsim : Simulates Jobq.step Any Jobs.step fun s q => Represents s q ∧ q.Whole := by
    rintro s q e s' ⟨hs, hq⟩ - hstep
    obtain ⟨q', hs', rfl | ⟨e', hq'⟩⟩ := represents_step hs hq hstep
    · exact .inl ⟨hs', hq⟩
    · exact .inr ⟨e', q', hq', hs', hq.next hq'⟩
  obtain ⟨q, hq, hs, -⟩ := hsim.reachable _ _ _ ⟨h₀, hwhole⟩ h
  exact ⟨q, hq, hs⟩

/-- The reports of the list are determined by the memory. -/
theorem RootList.unique {root' : List Ptr} (h : RootList s root) (h' : RootList s root') (hnodup : root.Nodup)
    (hnodup' : root'.Nodup) : root = root' := by
  unfold RootList at h h'
  cases hpc : s.pc with
  | setRoot | threads | done =>
    rw [hpc] at h h'
    exact Path.unique h h'
  | loop workItem | process workItem tmp | advance workItem =>
    rw [hpc] at h h'
    exact h.1.unique h'.1
  | remove workItem tmp =>
    rw [hpc] at h h'
    obtain ⟨before, rest, b, rfl, rfl, hbefore, hrest⟩ := h
    obtain ⟨before', rest', b', rfl, hitem, hbefore', hrest'⟩ := h'
    rw [Slot.after_unique hbefore hbefore' (List.nodup_append.mp hnodup).1 (List.nodup_append.mp hnodup').1 hitem,
      hrest.unique hrest']

/-- A queue in memory is one queue of jobs. -/
theorem Represents.unique {q' : Jobs} (h : Represents s q) (h' : Represents s q') : q = q' := by
  obtain ⟨waiting, root, hlists, hpending, hroot, hfinished, hposted⟩ := h
  obtain ⟨waiting', root', hlists', hpending', hroot', hfinished', hposted'⟩ := h'
  obtain rfl := hlists.waits.unique hlists'.waits
  obtain rfl := hlists.shape.unique hlists'.shape (List.nodup_append.mp hlists.nodup).2.1
    (List.nodup_append.mp hlists'.nodup).2.1
  cases q
  cases q'
  simp_all

/-- The property of a queue in memory: every posted job is in one list, the job that is processed is one of the list,
and those that stay in the list keep their order whatever happens. -/
structure Conserved (s : Jobq) (q : Jobs) : Prop where
  represents : Represents s q
  whole : q.Whole
  process : ∀ done s', s.step (.process done) = some s' → ∃ job ∈ q.root, job ∉ s.finished ∧
    s'.processed = s.processed ++ [job] ∧ s'.finished = if done then s.finished ++ [job] else s.finished
  later : ∀ s', Reachable Jobq.step Any s s' → ∃ q', Represents s' q' ∧ q'.Whole ∧
    Jobs.SameOrder q.root q'.root ∧ ∀ job ∈ s.finished, job ∈ s'.finished ∧ job ∉ q'.root

/-- **Conservation of the jobs.** In every interleaving of posts with the passes of the reporter no job is lost, none is
processed after it finished, and the jobs that stay in the list keep their order. -/
theorem jobq_conservation (next : Ptr → Option Ptr) :
    ∀ s, Reachable Jobq.step Any (.init next) s → ∃ q, Conserved s q := by
  intro s hs
  have hempty : Jobs.empty.Whole := List.Perm.refl _
  obtain ⟨q, hq, hrepresents⟩ := represents_of_reachable (init_represents next) hempty hs
  have hwhole := Jobs.whole_of_reachable hempty hq
  have hfinished := hrepresents.finished
  refine ⟨q, hrepresents, hwhole, fun done s' hstep => ?_, fun s' hs' => ?_⟩
  · obtain ⟨job, q', -, hprocess, hlog, hdone⟩ := represents_process hrepresents hwhole hstep
    have hmem : job ∈ q.root := by
      by_contra hnot
      simp [Jobs.step, hnot] at hprocess
    refine ⟨job, hmem, ?_, hlog, hdone⟩
    rw [← hfinished]
    exact hwhole.not_finished hmem
  · obtain ⟨q', hq', hrepresents'⟩ := represents_of_reachable hrepresents hwhole hs'
    have hkept := Jobs.kept_of_reachable hwhole hq'
    have hfinished' := hrepresents'.finished
    refine ⟨q', hrepresents', hkept.whole, hkept.order, fun job hjob => ?_⟩
    rw [← hfinished] at hjob
    have hin := hkept.finished job hjob
    refine ⟨hfinished' ▸ hin, fun hroot => ?_⟩
    exact hkept.whole.not_finished hroot hin

end

/-- Two jobs, of which the first finishes; its memory is posted again before the reporter takes it out of the list. -/
def reusedMemory : List JobqEvent :=
  [.post 5, .post 6, .statement, .statement, .process true, .post 5, .statement, .statement, .statement, .statement]

theorem jobq_conservation_reused :
    ∃ s, run Jobq.step Any (.init fun _ => none) reusedMemory = some s ∧
      s.finished = [0] ∧ s.reportRoot = some 5 ∧ s.next 5 = some 6 ∧ ∃ q, Conserved s q := by
  obtain ⟨s, hs, hfinished, hroot, hnext⟩ : ∃ s, run Jobq.step Any (.init fun _ => none) reusedMemory = some s ∧
      s.finished = [0] ∧ s.reportRoot = some 5 ∧ s.next 5 = some 6 := ⟨_, rfl, rfl, rfl, rfl⟩
  exact ⟨s, hs, hfinished, hroot, hnext, jobq_conservation (fun _ => none) s (.of_run _ _ .start hs)⟩

end Iperf2.Report
