import Iperf2.Report.Jobq

/-!
# A pass of the reporter

A pass of `reporter_spawn` goes over the list of the reporter and takes out the reports that are finished. After it
took one out it steps on from the report that came into its place, so it does not process that one.

* `visited` : the jobs that a pass processes, of the jobs of the list and those that finish;
* `Passing` : what a pass has still to do, at every statement and whatever other threads do;
* `fair_pass` : when a pass processes every job of its list once.
-/

namespace Iperf2.Report
open Transition Chain

/-! ## The jobs of a pass -/

section
variable (finishes : Nat → Bool)

/-- The jobs that a pass over a list processes. -/
def visited : List Nat → List Nat
  | [] => []
  | [job] => [job]
  | job :: next :: rest => job :: if finishes job then visited rest else visited (next :: rest)

theorem visited_cons (job : Nat) (rest : List Nat) :
    visited finishes (job :: rest) =
      job :: if finishes job then visited finishes rest.tail else visited finishes rest := by
  cases rest with
  | nil => simp [visited]
  | cons next rest => rfl

/-- A pass processes jobs of its list, in their order. -/
theorem visited_sublist (jobs : List Nat) : (visited finishes jobs).Sublist jobs := by
  induction jobs using visited.induct with
  | case1 => exact List.Sublist.refl []
  | case2 job => exact List.Sublist.refl [job]
  | case3 job next rest hskip hrest =>
    rw [visited]
    apply List.Sublist.cons_cons
    split
    · exact hskip.cons next
    · exact hrest

/-- When none but the last one finishes, all jobs are processed. -/
theorem visited_all {jobs : List Nat} (h : ∀ job ∈ jobs.dropLast, finishes job = false) :
    visited finishes jobs = jobs := by
  induction jobs with
  | nil => rfl
  | cons job rest ih =>
    cases rest with
    | nil => rfl
    | cons next rest =>
      have hfirst : finishes job = false := h job List.mem_cons_self
      rw [visited_cons, hfirst, if_neg Bool.false_ne_true, ih fun job' hjob' => h job' (List.mem_cons_of_mem job hjob')]

/-- The job behind one that finishes is not processed. -/
theorem not_finishes {jobs : List Nat} (hnodup : jobs.Nodup)
    (h : ∀ job ∈ jobs, (visited finishes jobs).count job = 1) : ∀ job ∈ jobs.dropLast, finishes job = false := by
  induction jobs with
  | nil => exact fun job hjob => by cases hjob
  | cons job rest ih =>
    cases rest with
    | nil => exact fun job' hjob' => by cases hjob'
    | cons next rest =>
      have hne := List.nodup_cons.mp hnodup
      have hfirst : finishes job = false := by
        by_contra hdone
        rw [Bool.not_eq_false] at hdone
        have hnext := h next (List.mem_cons_of_mem job List.mem_cons_self)
        rw [visited_cons, hdone, if_pos rfl, List.tail_cons, List.count_eq_zero_of_not_mem] at hnext
        · exact absurd hnext (by decide)
        · rw [List.mem_cons, not_or]
          refine ⟨fun heq => hne.1 (heq ▸ List.mem_cons_self), fun hmem => ?_⟩
          exact (List.nodup_cons.mp hne.2).1 ((visited_sublist finishes rest).subset hmem)
      have hrest : ∀ job' ∈ next :: rest, (visited finishes (next :: rest)).count job' = 1 := by
        intro job' hjob'
        have hcount := h job' (List.mem_cons_of_mem job hjob')
        have hother : job ≠ job' := fun heq => hne.1 (heq ▸ hjob')
        rwa [visited_cons, hfirst, if_neg Bool.false_ne_true, List.count_cons_of_ne hother] at hcount
      intro job' hjob'
      rcases List.mem_cons.mp hjob' with rfl | hmem
      · exact hfirst
      · exact ih hne.2 hrest job' hmem

/-- **The jobs of a pass.** Every job is processed once just if none but the last one finishes. -/
theorem visited_fair {jobs : List Nat} (hnodup : jobs.Nodup) :
    (∀ job ∈ jobs, (visited finishes jobs).count job = 1) ↔ ∀ job ∈ jobs.dropLast, finishes job = false := by
  refine ⟨not_finishes finishes hnodup, fun hlast job hjob => ?_⟩
  rw [visited_all finishes hlast]
  exact List.count_eq_one_of_mem hnodup hjob

end

/-! ## What a pass has still to do -/

/-- The reports that the work item leads to: those that the pass has not come to. Behind a report that is taken out, and
behind one that is not finished, the pass steps over the one that the work item points to. -/
def Ahead (s : Jobq) (l : List Ptr) : Prop :=
  match s.pc with
  | .loop workItem => Path s.next (s.load workItem) l none
  | .process workItem _ => ∃ p rest, s.load workItem = some p ∧ Path s.next (s.next p) rest none ∧ l = p :: rest
  | .remove _ tmp => ∃ rest, Path s.next tmp rest none ∧ l = rest.tail
  | .advance workItem => ∃ p, s.load workItem = some p ∧ Path s.next (s.next p) l none
  | _ => l = []

section
variable {s s' : Jobq} {waiting root : List Ptr} {q : Jobs} {l : List Ptr}

/-- The place behind reports of the list is the same when nothing of the list is written. -/
theorem load_congr {before : List Ptr} {b : Option Ptr} (hbefore : Path s.next s.reportRoot before b)
    (hnext : ∀ p ∈ before, s'.next p = s.next p) (hroot : s'.reportRoot = s.reportRoot) :
    s'.load (.after before) = s.load (.after before) := by
  have hbefore' : Path s'.next s'.reportRoot before b := by
    rw [hroot]
    exact hbefore.congr hnext
  exact (Slot.load_after hbefore').trans (Slot.load_after hbefore).symm

/-- The report at such a place, and those behind it, are those of the list and stay the same. -/
theorem loaded_congr {before rest rest' : List Ptr} {p p' : Ptr}
    (hlist : Path s.next s.reportRoot (before ++ p' :: rest') none) (hp : s.load (.after before) = some p)
    (hrest : Path s.next (s.next p) rest none) (hnext : ∀ r ∈ before ++ p' :: rest', s'.next r = s.next r)
    (hroot : s'.reportRoot = s.reportRoot) :
    p' = p ∧ rest = rest' ∧ s'.load (.after before) = some p ∧ Path s'.next (s'.next p) rest none := by
  obtain ⟨b, hbefore, hbehind⟩ := path_append.mp hlist
  obtain rfl : p' = p := Option.some.inj (hbehind.1.symm.trans ((Slot.load_after hbefore).symm.trans hp))
  obtain rfl := hrest.unique hbehind.2
  refine ⟨rfl, rfl, ?_, ?_⟩
  · rw [load_congr hbefore (fun r hr => hnext r (List.mem_append_left _ hr)) hroot]
    exact hp
  · rw [hnext p' (List.mem_append_right before List.mem_cons_self)]
    exact hrest.congr fun r hr => hnext r (List.mem_append_right before (List.mem_cons_of_mem p' hr))

/-- What is ahead is part of the list, and the same when nothing of the list is written. -/
theorem Ahead.congr (h : Ahead s l) (hlist : RootList s root) (hnext : ∀ p ∈ root, s'.next p = s.next p)
    (hroot : s'.reportRoot = s.reportRoot) (hpc : s'.pc = s.pc) : (∀ p ∈ l, p ∈ root) ∧ Ahead s' l := by
  unfold Ahead RootList at *
  rw [hpc]
  cases hcase : s.pc with
  | setRoot | threads | done =>
    rw [hcase] at h
    subst h
    exact ⟨List.forall_mem_nil _, rfl⟩
  | loop workItem =>
    rw [hcase] at h hlist
    obtain ⟨hpath, before, rest, rfl, rfl⟩ := hlist
    obtain ⟨b, hbefore, hrest⟩ := path_append.mp hpath
    have hload : s.load (.after before) = b := Slot.load_after hbefore
    rw [← hload] at hrest
    obtain rfl : l = rest := h.unique hrest
    refine ⟨fun p hp => List.mem_append_right before hp, ?_⟩
    show Path s'.next (s'.load _) l none
    rw [load_congr hbefore (fun p hp => hnext p (List.mem_append_left l hp)) hroot]
    exact h.congr fun p hp => hnext p (List.mem_append_right before hp)
  | process workItem tmp =>
    rw [hcase] at h hlist
    obtain ⟨hpath, before, p', rest', rfl, rfl, -⟩ := hlist
    obtain ⟨p, rest, hp, hpath', rfl⟩ := h
    obtain ⟨rfl, rfl, hload, hrest⟩ := loaded_congr hpath hp hpath' hnext hroot
    exact ⟨fun r hr => List.mem_append_right before hr, p', rest, hload, hrest, rfl⟩
  | remove workItem tmp =>
    rw [hcase] at h hlist
    obtain ⟨before, rest', b, rfl, -, -, hrest'⟩ := hlist
    obtain ⟨rest, hrest, rfl⟩ := h
    obtain rfl := hrest.unique hrest'
    refine ⟨fun r hr => List.mem_append_right before (List.mem_of_mem_tail hr), rest, ?_, rfl⟩
    exact hrest.congr fun r hr => hnext r (List.mem_append_right before hr)
  | advance workItem =>
    rw [hcase] at h hlist
    obtain ⟨hpath, before, p', rest', rfl, rfl⟩ := hlist
    obtain ⟨p, hp, hpath'⟩ := h
    obtain ⟨rfl, rfl, hload, hrest⟩ := loaded_congr hpath hp hpath' hnext hroot
    exact ⟨fun r hr => List.mem_append_right before (List.mem_cons_of_mem p' hr), p', hload, hrest⟩

/-- The statements that are left of a pass, at most. -/
def ReporterPc.left (pc : ReporterPc) (ahead : Nat) : Nat :=
  match pc with
  | .loop _ => 4 * ahead + 1
  | .process _ _ => 4 * ahead
  | .remove _ _ => 4 * ahead + 3
  | .advance _ => 4 * ahead + 2
  | _ => 0

/-- The pass is at its end, or there is a statement left. -/
def ReporterPc.InPass (pc : ReporterPc) (ahead : Nat) : Prop := pc = .setRoot ∨ 0 < pc.left ahead

/-- A statement of the pass that is not a call of `reporter_process_report`. -/
theorem Ahead.statement (h : Ahead s l) (hlists : Lists s waiting root) (hpc : s.pc ≠ .setRoot)
    (hstep : s.statement = some s') :
    Ahead s' l ∧ s'.pc.left l.length < s.pc.left l.length ∧ s'.pc.InPass l.length ∧ s'.processed = s.processed ∧
      s'.job = s.job := by
  have hshape := hlists.shape
  unfold RootList at hshape
  unfold Ahead at h
  unfold Jobq.statement at hstep
  cases hcase : s.pc with
  | setRoot => exact absurd hcase hpc
  | loop workItem =>
    rw [hcase] at hstep h
    cases hload : s.load workItem with
    | none =>
      simp only [hload] at hstep h
      obtain rfl := Option.some.inj hstep
      obtain rfl : l = [] := h.unique rfl
      exact ⟨rfl, by simp [ReporterPc.left], .inl rfl, rfl, rfl⟩
    | some p =>
      simp only [hload] at hstep h
      obtain rfl := Option.some.inj hstep
      cases l with
      | nil => cases h
      | cons p' rest =>
        obtain rfl : p = p' := Option.some.inj h.1
        exact ⟨⟨p, rest, hload, h.2, rfl⟩, by simp [ReporterPc.left], .inr (by simp [ReporterPc.left]), rfl, rfl⟩
  | remove workItem tmp =>
    rw [hcase] at hstep h hshape
    obtain ⟨before, rest', b, rfl, rfl, hbefore, hrest'⟩ := hshape
    obtain ⟨rest, hrest, rfl⟩ := h
    obtain rfl := hrest.unique hrest'
    obtain rfl := Option.some.inj hstep
    have hnodup := List.nodup_append.mp (List.nodup_append.mp hlists.nodup).2.1
    cases rest with
    | nil =>
      obtain rfl : tmp = none := hrest
      exact ⟨rfl, by simp [ReporterPc.left], .inl rfl, rfl, rfl⟩
    | cons p rest =>
      obtain rfl : tmp = some p := hrest.1
      -- the store does not touch what is behind it
      have hrest' : Path ((Slot.after before).storeNext s.next (some p)) (some p) (p :: rest) none :=
        Slot.path_store_other hrest fun r hr hr' => hnodup.2.2 r hr r hr' rfl
      have hload := Slot.load_after (Slot.path_store (v := some p) hbefore hnodup.1)
      exact ⟨⟨p, hload, hrest'.2⟩, by simp [ReporterPc.left], .inr (by simp [ReporterPc.left]), rfl, rfl⟩
  | advance workItem =>
    rw [hcase] at hstep h
    obtain ⟨p, hp, hrest⟩ := h
    simp only [hp] at hstep
    obtain rfl := Option.some.inj hstep
    exact ⟨hrest, by simp [ReporterPc.left], .inr (by simp [ReporterPc.left]), rfl, rfl⟩
  | threads | process workItem tmp | done =>
    rw [hcase] at hstep
    cases hstep

/-- A call of `reporter_process_report` on the report that is ahead. -/
theorem Ahead.process (h : Ahead s l) (hlists : Lists s waiting root) {done : Bool} (hstep : s.process done = some s') :
    ∃ workItem p rest, l = p :: rest ∧ s.load workItem = some p ∧ (∃ tmp, s.pc = .process workItem tmp) ∧
      s'.processed = s.processed ++ [s.job p] ∧ s'.job = s.job ∧ Ahead s' (if done then rest.tail else rest) ∧
      s'.pc.left (if done then rest.tail else rest).length < s.pc.left l.length ∧
      s'.pc.InPass (if done then rest.tail else rest).length := by
  have hshape := hlists.shape
  unfold RootList at hshape
  unfold Ahead at h
  unfold Jobq.process at hstep
  split at hstep
  · rename_i workItem tmp hpc
    rw [hpc] at h hshape
    obtain ⟨hpath, before, p', rest', rfl, rfl, rfl⟩ := hshape
    obtain ⟨b, hbefore, hlink⟩ := path_append.mp hpath
    obtain ⟨p, rest, hload, hrest, rfl⟩ := h
    obtain rfl : p' = p := Option.some.inj (hlink.1.symm.trans ((Slot.load_after hbefore).symm.trans hload))
    simp only [hload] at hstep
    refine ⟨_, p', rest, rfl, hload, ⟨_, hpc⟩, ?_⟩
    cases done with
    | false =>
      obtain rfl := Option.some.inj hstep
      refine ⟨rfl, rfl, ⟨p', hload, hrest⟩, ?_, .inr (by simp [ReporterPc.left])⟩
      simp only [hpc, ReporterPc.left, Bool.false_eq_true, if_false, List.length_cons]
      omega
    | true =>
      obtain rfl := Option.some.inj hstep
      refine ⟨rfl, rfl, ⟨rest, hrest, rfl⟩, ?_, .inr (by simp [ReporterPc.left])⟩
      simp only [hpc, ReporterPc.left, if_true, List.length_tail, List.length_cons]
      omega
  · cases hstep

/-! ## A run of a pass -/

/-- The job that `reporter_process_report` is called for next. -/
def Jobq.called (s : Jobq) : Option Nat :=
  match s.pc with
  | .process workItem _ => (s.load workItem).map s.job
  | _ => none

/-- The guard of a pass: these are the jobs that finish, and the next pass does not start. -/
def OfPass (finishes : Nat → Bool) (s : Jobq) : JobqEvent → Prop
  | .statement => s.pc ≠ .setRoot
  | .process done => s.called.map finishes = some done
  | _ => True

/-- A pass with these reports ahead, which will have processed the jobs of `log` at its end. -/
structure Passing (finishes : Nat → Bool) (log : List Nat) (s : Jobq) (l : List Ptr) : Prop where
  represents : ∃ q, Represents s q ∧ q.Whole
  ahead : Ahead s l
  inPass : s.pc.InPass l.length
  log : s.processed ++ visited finishes (l.map s.job) = log

variable {finishes : Nat → Bool} {log : List Nat}

/-- The jobs in memory stay well formed. -/
theorem represents_next (h : ∃ q, Represents s q ∧ q.Whole) {e : JobqEvent} (hstep : s.step e = some s') :
    ∃ q, Represents s' q ∧ q.Whole := by
  obtain ⟨q, hq, hwhole⟩ := h
  obtain ⟨q', hq', rfl | ⟨e', hstep'⟩⟩ := represents_step hq hwhole hstep
  · exact ⟨q', hq', hwhole⟩
  · exact ⟨q', hq', hwhole.next hstep'⟩

theorem Passing.process (h : Passing finishes log s l) {done : Bool} (hpass : OfPass finishes s (.process done))
    (hstep : s.process done = some s') :
    ∃ l', Passing finishes log s' l' ∧ s'.pc.left l'.length < s.pc.left l.length := by
  obtain ⟨q, ⟨waiting, root, hlists, -⟩, -⟩ := h.represents
  obtain ⟨workItem, p, rest, rfl, hload, ⟨tmp, hpc⟩, hprocessed, hjob, hahead, hleft, hin⟩ :=
    h.ahead.process hlists hstep
  have hcalled : s.called = some (s.job p) := by
    simp only [Jobq.called, hpc, hload, Option.map_some]
  obtain rfl : finishes (s.job p) = done := by
    rw [OfPass, hcalled] at hpass
    exact Option.some.inj hpass
  refine ⟨_, ⟨represents_next h.represents (e := .process _) hstep, hahead, hin, ?_⟩, hleft⟩
  rw [hprocessed, hjob, ← h.log, List.map_cons, visited_cons, List.append_assoc]
  cases finishes (s.job p) with
  | false => rfl
  | true =>
    rw [if_pos rfl, if_pos rfl, List.map_tail]
    rfl

theorem Passing.statement (h : Passing finishes log s l) (hpc : s.pc ≠ .setRoot) (hstep : s.statement = some s') :
    Passing finishes log s' l ∧ s'.pc.left l.length < s.pc.left l.length := by
  obtain ⟨q, ⟨waiting, root, hlists, -⟩, -⟩ := h.represents
  obtain ⟨hahead, hleft, hin, hprocessed, hjob⟩ := h.ahead.statement hlists hpc hstep
  refine ⟨⟨represents_next h.represents (e := .statement) hstep, hahead, hin, ?_⟩, hleft⟩
  rw [hprocessed, hjob]
  exact h.log

/-- What other threads do leaves the pass alone. -/
theorem Passing.other (h : Passing finishes log s l) {e : JobqEvent} (hstep : s.step e = some s')
    (hprocessed : s'.processed = s.processed) (hpc : s'.pc = s.pc) (hroot : s'.reportRoot = s.reportRoot)
    (hnext : ∀ waiting root, Lists s waiting root → ∀ p ∈ root, s'.next p = s.next p ∧ s'.job p = s.job p) :
    Passing finishes log s' l := by
  obtain ⟨q, ⟨waiting, root, hlists, -⟩, -⟩ := h.represents
  have hsame := hnext waiting root hlists
  obtain ⟨hsub, hahead⟩ := h.ahead.congr hlists.shape (fun p hp => (hsame p hp).1) hroot hpc
  refine ⟨represents_next h.represents hstep, hahead, hpc ▸ h.inPass, ?_⟩
  have hjobs : l.map s'.job = l.map s.job := List.map_congr_left fun p hp => (hsame p (hsub p hp)).2
  rw [hprocessed, hjobs]
  exact h.log

theorem postReport_other {reporthdr : Ptr} (hfree : s.live reporthdr = false) :
    (postReport s reporthdr).processed = s.processed ∧ (postReport s reporthdr).pc = s.pc ∧
      (postReport s reporthdr).reportRoot = s.reportRoot ∧
      ∀ waiting root, Lists s waiting root → ∀ p ∈ root,
        (postReport s reporthdr).next p = s.next p ∧ (postReport s reporthdr).job p = s.job p := by
  have hother : ∀ waiting root, Lists s waiting root → ∀ p ∈ root,
      p ≠ reporthdr ∧ ∀ tail, s.reportPendingTail = some tail → p ≠ tail := by
    intro waiting root hlists p hp
    refine ⟨fun heq => (hlists.free hfree).2 (heq ▸ hp), fun tail htail heq => ?_⟩
    have hmem : tail ∈ waiting := List.mem_of_getLast? (hlists.tail.symm.trans htail)
    exact (List.nodup_append.mp hlists.nodup).2.2 tail hmem p hp heq.symm
  unfold postReport
  cases hhead : s.reportPendingHead with
  | none =>
    refine ⟨rfl, rfl, rfl, fun waiting root hlists p hp => ?_⟩
    have hne := (hother waiting root hlists p hp).1
    exact ⟨Function.update_of_ne hne .., Function.update_of_ne hne ..⟩
  | some first =>
    cases htail : s.reportPendingTail with
    | none =>
      refine ⟨rfl, rfl, rfl, fun waiting root hlists p hp => ?_⟩
      have hne := (hother waiting root hlists p hp).1
      exact ⟨Function.update_of_ne hne .., Function.update_of_ne hne ..⟩
    | some tail =>
      refine ⟨rfl, rfl, rfl, fun waiting root hlists p hp => ?_⟩
      obtain ⟨hne, hlast⟩ := hother waiting root hlists p hp
      refine ⟨?_, Function.update_of_ne hne ..⟩
      show Function.update (Function.update s.next reporthdr none) tail (some reporthdr) p = s.next p
      rw [Function.update_of_ne (hlast tail htail), Function.update_of_ne hne]

/-- **Every step of a pass.** -/
theorem Passing.next (h : Passing finishes log s l) {e : JobqEvent} (hpass : OfPass finishes s e)
    (hstep : s.step e = some s') : ∃ l', Passing finishes log s' l' := by
  cases e with
  | post reporthdr =>
    have hpost := hstep
    simp only [Jobq.step] at hpost
    split_ifs at hpost with hlive
    obtain rfl := Option.some.inj hpost
    obtain ⟨hprocessed, hpc, hroot, hnext⟩ := postReport_other (Bool.eq_false_iff.mpr hlive)
    exact ⟨l, h.other hstep hprocessed hpc hroot hnext⟩
  | write p link =>
    have hwrite := hstep
    simp only [Jobq.step] at hwrite
    split_ifs at hwrite with hlive
    obtain rfl := Option.some.inj hwrite
    refine ⟨l, h.other hstep rfl rfl rfl fun waiting root hlists r hr => ⟨?_, rfl⟩⟩
    apply Function.update_of_ne
    rintro rfl
    exact (hlists.free (Bool.eq_false_iff.mpr hlive)).2 hr
  | statement =>
    obtain ⟨hpassing, -⟩ := h.statement hpass hstep
    exact ⟨l, hpassing⟩
  | threads more =>
    simp only [Jobq.step] at hstep
    have hnot : s.pc ≠ .threads := by
      intro hpc
      have hin := h.inPass
      rw [hpc] at hin
      rcases hin with hin | hin
      · cases hin
      · exact absurd hin (lt_irrefl 0)
    rw [if_neg hnot] at hstep
    cases hstep
  | process done =>
    obtain ⟨l', hpassing, -⟩ := h.process hpass hstep
    exact ⟨l', hpassing⟩

/-- The reporter has a next statement, until the pass ends. -/
theorem Passing.progress (h : Passing finishes log s l) (hpc : s.pc ≠ .setRoot) :
    ∃ e s' l', OfPass finishes s e ∧ s.step e = some s' ∧ Passing finishes log s' l' ∧
      s'.pc.left l'.length < s.pc.left l.length := by
  have hstatement : s.statement.isSome = true → ∃ e s' l', OfPass finishes s e ∧ s.step e = some s' ∧
      Passing finishes log s' l' ∧ s'.pc.left l'.length < s.pc.left l.length := by
    intro hsome
    obtain ⟨s', hstep⟩ := Option.isSome_iff_exists.mp hsome
    exact ⟨.statement, s', l, hpc, hstep, h.statement hpc hstep⟩
  have hahead := h.ahead
  unfold Ahead at hahead
  obtain ⟨pc, hcase⟩ : ∃ pc, s.pc = pc := ⟨_, rfl⟩
  cases pc with
  | setRoot => exact absurd hcase hpc
  | loop workItem =>
    cases hload : s.load workItem with
    | none => exact hstatement (by simp only [Jobq.statement, hcase, hload, Option.isSome_some])
    | some p => exact hstatement (by simp only [Jobq.statement, hcase, hload, Option.isSome_some])
  | remove workItem tmp => exact hstatement (by simp only [Jobq.statement, hcase, Option.isSome_some])
  | advance workItem =>
    rw [hcase] at hahead
    obtain ⟨p, hload, -⟩ := hahead
    exact hstatement (by simp only [Jobq.statement, hcase, hload, Option.isSome_some])
  | process workItem tmp =>
    rw [hcase] at hahead
    obtain ⟨p, rest, hload, -, -⟩ := hahead
    have hpass : OfPass finishes s (.process (finishes (s.job p))) := by
      simp only [OfPass, Jobq.called, hcase, hload, Option.map_some]
    obtain ⟨s', hstep⟩ : ∃ s', s.process (finishes (s.job p)) = some s' := by
      simp only [Jobq.process, hcase, hload]
      split <;> exact ⟨_, rfl⟩
    obtain ⟨l', hpassing, hleft⟩ := h.process hpass hstep
    exact ⟨_, s', l', hpass, hstep, hpassing, hleft⟩
  | threads | done =>
    have hin := h.inPass
    rw [hcase] at hin
    rcases hin with hin | hin
    · cases hin
    · exact absurd hin (lt_irrefl 0)

/-- The reporter comes to the end of the pass. -/
theorem Passing.ends (h : Passing finishes log s l) :
    ∃ s', Reachable Jobq.step (OfPass finishes) s s' ∧ s'.pc = .setRoot := by
  generalize hleft : s.pc.left l.length = left
  induction left using Nat.strong_induction_on generalizing s l with
  | h left ih =>
    by_cases hpc : s.pc = .setRoot
    · exact ⟨s, .start, hpc⟩
    · obtain ⟨e, s', l', hpass, hstep, hpassing, hless⟩ := h.progress hpc
      obtain ⟨s'', hs'', hend⟩ := ih _ (hleft ▸ hless) hpassing rfl
      exact ⟨s'', (Reachable.start.next e hpass hstep).trans hs'', hend⟩

end

/-- **A fair pass.** In every run of the queue, a pass that starts comes to its end, whatever other threads do, and at its end
it called `reporter_process_report` exactly once for every job of the list that it started with just if none of these jobs
finished but the last one. -/
theorem fair_pass (next : Ptr → Option Ptr) (finishes : Nat → Bool) {s : Jobq}
    (hs : Reachable Jobq.step Any (.init next) s) (hbegin : s.pc = .loop .head) :
    ∃ q, Represents s q ∧
      ∀ s', Reachable Jobq.step (OfPass finishes) s s' →
        (∃ s'', Reachable Jobq.step (OfPass finishes) s' s'' ∧ s''.pc = .setRoot) ∧
          (s'.pc = .setRoot → ∃ calls, s'.processed = s.processed ++ calls ∧
            ((∀ job ∈ q.root, calls.count job = 1) ↔ ∀ job ∈ q.root.dropLast, finishes job = false)) := by
  have hempty : Jobs.empty.Whole := List.Perm.refl _
  obtain ⟨q, hq, hrepresents⟩ := represents_of_reachable (init_represents next) hempty hs
  have hwhole := Jobs.whole_of_reachable hempty hq
  refine ⟨q, hrepresents, fun s' hs' => ?_⟩
  have hrepresents' := hrepresents
  obtain ⟨waiting, root, hlists, -, hroot, -, -⟩ := hrepresents'
  have hahead : Ahead s root := by
    have hshape := hlists.shape
    rw [RootList, hbegin] at hshape
    rw [Ahead, hbegin]
    exact hshape.1
  have hbegins : Passing finishes (s.processed ++ visited finishes q.root) s root := by
    refine ⟨⟨q, hrepresents, hwhole⟩, hahead, .inr ?_, by rw [hroot]⟩
    rw [hbegin]
    exact Nat.succ_pos _
  obtain ⟨l, hpassing⟩ : ∃ l, Passing finishes (s.processed ++ visited finishes q.root) s' l := by
    apply hs'.invariant
    · exact ⟨root, hbegins⟩
    · rintro s e s' ⟨l, hpassing⟩ hpass hstep
      exact hpassing.next hpass hstep
  refine ⟨hpassing.ends, fun hend => ⟨visited finishes q.root, ?_, visited_fair finishes hwhole.root_nodup⟩⟩
  have hnone : l = [] := by
    have hahead' := hpassing.ahead
    rw [Ahead, hend] at hahead'
    exact hahead'
  rw [← hpassing.log, hnone]
  simp [visited]

/-! Two jobs in one pass. -/

instance (finishes : Nat → Bool) (s : Jobq) : (e : JobqEvent) → Decidable (OfPass finishes s e)
  | .statement => inferInstanceAs (Decidable (s.pc ≠ .setRoot))
  | .process done => inferInstanceAs (Decidable (s.called.map finishes = some done))
  | .post _ => .isTrue trivial
  | .write _ _ => .isTrue trivial
  | .threads _ => .isTrue trivial

def twoJobs : List JobqEvent := [.post 5, .post 6, .statement]

/-- The pass of two jobs when these finish. -/
def twoJobsPass (first second : Bool) : List JobqEvent :=
  if first then [.statement, .process true, .statement, .statement, .statement]
  else [.statement, .process false, .statement, .statement, .process second, .statement]

theorem twoJobs_root {s : Jobq} (hs : run Jobq.step Any (.init fun _ => none) twoJobs = some s) {q : Jobs}
    (hq : Represents s q) : q.root = [0, 1] := by
  obtain rfl := Option.some.inj hs
  obtain ⟨waiting, root, hlists, -, hroot, -, -⟩ := hq
  have hpath : ∀ next : Ptr → Option Ptr, next 5 = some 6 → next 6 = none → Path next (some 5) [5, 6] none :=
    fun next hfirst hsecond => ⟨rfl, hfirst, hsecond⟩
  obtain rfl := hlists.shape.1.unique (hpath _ rfl rfl)
  exact hroot

/-- The second one finishes. -/
theorem fair_pass_last :
    ∃ s s', run Jobq.step Any (.init fun _ => none) twoJobs = some s ∧
      run Jobq.step (OfPass (· == 1)) s (twoJobsPass false true) = some s' ∧
      ∃ calls, s'.processed = s.processed ++ calls ∧ ∀ job ∈ [0, 1], calls.count job = 1 := by
  obtain ⟨s, s', hs, hpc, hs', hend⟩ : ∃ s s', run Jobq.step Any (.init fun _ => none) twoJobs = some s ∧
      s.pc = .loop .head ∧ run Jobq.step (OfPass (· == 1)) s (twoJobsPass false true) = some s' ∧ s'.pc = .setRoot :=
    ⟨_, _, rfl, rfl, rfl, rfl⟩
  obtain ⟨q, hq, hpass⟩ := fair_pass (fun _ => none) (· == 1) (.of_run _ _ .start hs) hpc
  obtain ⟨calls, hcalls, hfair⟩ := (hpass s' (.of_run _ _ .start hs')).2 hend
  rw [twoJobs_root hs hq] at hfair
  exact ⟨s, s', hs, hs', calls, hcalls, hfair.mpr (by decide)⟩

/-- The first one finishes, and the pass does not call the second one. -/
theorem fair_pass_skips :
    ∃ s s' q, Reachable Jobq.step Any (.init fun _ => none) s ∧ s.pc = .loop .head ∧ Represents s q ∧ q.root = [0, 1] ∧
      Reachable Jobq.step (OfPass (· == 0)) s s' ∧ s'.pc = .setRoot ∧ s.processed = [] ∧ s'.processed = [0] := by
  obtain ⟨s, s', hs, hpc, hs', hend, hnone, hone⟩ : ∃ s s', run Jobq.step Any (.init fun _ => none) twoJobs = some s ∧
      s.pc = .loop .head ∧ run Jobq.step (OfPass (· == 0)) s (twoJobsPass true false) = some s' ∧
      s'.pc = .setRoot ∧ s.processed = [] ∧ s'.processed = [0] := ⟨_, _, rfl, rfl, rfl, rfl, rfl, rfl⟩
  have hreachable : Reachable Jobq.step Any (.init fun _ => none) s := .of_run _ _ .start hs
  have hempty : Jobs.empty.Whole := List.Perm.refl _
  obtain ⟨q, -, hq⟩ := represents_of_reachable (init_represents fun _ => none) hempty hreachable
  exact ⟨s, s', q, hreachable, hpc, hq, twoJobs_root hs hq, .of_run _ _ .start hs', hend, hnone, hone⟩

end Iperf2.Report
