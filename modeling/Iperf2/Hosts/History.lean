import Iperf2.Hosts.Table
import Iperf2.Lib.Transition

/-!
# The active table over a history of pushes and removals

The state is the table and the list of all pushes so far. A removal names the push it undoes, which must not be
removed yet, and an agent with that push's key. The address of a new sum report is any that no entry of the table
points to.

`Tracks` is the invariant: the table is well formed, it counts the pushes that are not removed, its sum reports
are distinct, and a push whose host stayed present since has the sum report that the table has for the host.
-/

namespace Iperf2.Hosts
open Transition

/-! ## Histories -/

/-- A push: its key, the `mSumReport` the agent got, whether it is not removed yet, and whether its host has been
in the table ever since. -/
structure Push where
  key : SockAddr
  sumReport : Nat
  live : Bool
  stayed : Bool
  deriving DecidableEq

structure History where
  table : IperfTable
  pushes : List Push

inductive HistoryLabel
  | push (agent : Agent) (report : Nat)
  | pushConditional (agent : Agent) (report : Nat)
  | remove (i : Nat) (agent : Agent)

def History.init : History := ⟨iperfInitializeActiveTable, []⟩

/-- The host of the push is still in the table. -/
def Push.stays (root : List IperfListEntry) (p : Push) : Push :=
  { p with stayed := p.stayed && (iperfHostPresent root p.key).isSome }

def History.step (s : History) : HistoryLabel → Option History
  | .push agent report =>
    if Unallocated s.table.root report then
      let pushed := iperfPushHost s.table agent report
      some ⟨pushed.1, s.pushes ++ [⟨activeTableGetHostKey agent, pushed.2.1, true, true⟩]⟩
    else none
  | .pushConditional agent report =>
    if Unallocated s.table.root report then
      let pushed := iperfPushHostPortConditional s.table agent report
      match pushed.2.1 with
      | none => some ⟨pushed.1, s.pushes⟩
      | some r => some ⟨pushed.1, s.pushes ++ [⟨activeTableGetHostKey agent, r, true, true⟩]⟩
    else none
  | .remove i agent =>
    match s.pushes[i]? with
    | none => none
    | some p =>
      if p.live ∧ activeTableGetHostKey agent = p.key then
        let table := iperfRemoveHost s.table agent
        some ⟨table, (s.pushes.set i { p with live := false }).map (Push.stays table.root)⟩
      else none

/-- The host that a push holds while it is not removed. -/
def Push.holds (p : Push) : Option Host := if p.live then some p.key.host else none

/-- The pushes of the host. -/
def History.pushesOf (s : History) (host : SockAddr) : Nat :=
  s.pushes.countP fun p => sockAddrHostareEqual p.key host

/-- The removals of the host. -/
def History.removesOf (s : History) (host : SockAddr) : Nat :=
  s.pushes.countP fun p => sockAddrHostareEqual p.key host && !p.live

/-! ## The invariant -/

/-- The table keeps track of the pushes. -/
structure Tracks (s : History) : Prop where
  wellFormed : WellFormed s.table
  counts : Registry.Counts (registry sumReports s.table.root) (Registry.holders Push.holds s.pushes)
  separate : Registry.Separate (registry sumReports s.table.root)
  stayed : ∀ p ∈ s.pushes, p.stayed → ∃ n, registry sumReports s.table.root p.key.host = some (p.sumReport, n)

theorem Tracks.init : Tracks .init where
  wellFormed := .init
  counts := fun _ => rfl
  separate := fun _ _ _ _ _ h => nomatch h
  stayed := fun _ h => nomatch h

/-- A push that goes through. -/
theorem Tracks.update {s : History} (h : Tracks s) {agent : Agent} {report : Nat}
    (hnew : Unallocated s.table.root report) (host : SockAddr) :
    let pushed := activeTableUpdate s.table host agent report
    Tracks ⟨pushed.1, s.pushes ++ [⟨host, pushed.2, true, true⟩]⟩ := by
  have hreg := registry_activeTableUpdate sumReports s.table host agent report
  refine ⟨h.wellFormed.activeTableUpdate host agent report, ?_, ?_, ?_⟩
  · rw [hreg, Registry.holders_append (show Push.holds _ = some host.host from rfl)]
    exact h.counts.acquire _ _
  · rw [hreg]
    exact h.separate.acquire _ _ hnew.fresh
  · intro p hp hstayed
    simp only [hreg]
    rcases List.mem_append.mp hp with hp | hp
    · obtain ⟨n, hn⟩ := h.stayed p hp hstayed
      exact Registry.value_acquire_of_some hn
    · cases List.mem_singleton.mp hp
      simp only [activeTableUpdate_sumReport]
      exact Registry.acquire_self

/-- A removal of a push that is not removed. -/
theorem Tracks.remove {s : History} (h : Tracks s) {i : Nat} {agent : Agent} {p : Push}
    (hp : s.pushes[i]? = some p) (hlive : p.live) (hkey : activeTableGetHostKey agent = p.key) :
    let table := iperfRemoveHost s.table agent
    Tracks ⟨table, (s.pushes.set i { p with live := false }).map (Push.stays table.root)⟩ := by
  have hreg := registry_iperfRemoveHost sumReports h.wellFormed agent
  have hholds : p.holds = some (activeTableGetHostKey agent).host := by rw [Push.holds, if_pos hlive, hkey]
  refine ⟨h.wellFormed.iperfRemoveHost agent, ?_, ?_, ?_⟩
  · have hset : Registry.holders Push.holds (s.pushes.set i { p with live := false }) =
        Function.update (Registry.holders Push.holds s.pushes) (activeTableGetHostKey agent).host
          (Registry.holders Push.holds s.pushes (activeTableGetHostKey agent).host - 1) :=
      Registry.holders_set_drop hp hholds rfl
    rw [hreg, Registry.holders_map]
    exact hset ▸ h.counts.release (Registry.holders_pos_of_get hp hholds)
  · rw [hreg]
    exact h.separate.release _
  · intro q hq hstayed
    obtain ⟨q', hq', rfl⟩ := List.mem_map.mp hq
    simp only [Push.stays, Bool.and_eq_true] at hstayed
    obtain ⟨itr, hitr⟩ := Option.isSome_iff_exists.mp hstayed.2
    -- the host is still there, and it was there before with the report of the push
    have hthere : registry sumReports (iperfRemoveHost s.table agent).root q'.key.host =
        some (itr.sumReport, itr.threadCount) := by
      rw [registry_host, hitr]
      rfl
    obtain ⟨n, hn⟩ := Registry.value_release (hreg ▸ hthere)
    have hold : ∃ n, registry sumReports s.table.root q'.key.host = some (q'.sumReport, n) := by
      rcases List.mem_or_eq_of_mem_set hq' with hq' | rfl
      · exact h.stayed q' hq' hstayed.1
      · exact h.stayed p (List.mem_of_getElem? hp) hstayed.1
    obtain ⟨m, hm⟩ := hold
    rw [hn, Option.some.injEq, Prod.mk.injEq] at hm
    exact ⟨itr.threadCount, hm.1 ▸ hthere⟩

theorem Tracks.step {s s' : History} (h : Tracks s) (a : HistoryLabel) (hs : s.step a = some s') :
    Tracks s' := by
  cases a with
  | push agent report =>
    simp only [History.step] at hs
    split at hs
    · rename_i hnew
      cases hs
      exact h.update hnew _
    · cases hs
  | pushConditional agent report =>
    simp only [History.step, iperfPushHostPortConditional] at hs
    split at hs
    · rename_i hnew
      by_cases hpresent : iperfHostPortPresent s.table.root (activeTableGetHostKey agent)
      · rw [if_pos hpresent] at hs
        cases hs
        exact h
      · rw [if_neg hpresent] at hs
        cases hs
        exact h.update hnew _
    · cases hs
  | remove i agent =>
    simp only [History.step] at hs
    cases hp : s.pushes[i]? with
    | none => simp [hp] at hs
    | some p =>
      simp only [hp] at hs
      split at hs
      · rename_i hguard
        cases hs
        exact h.remove hp hguard.1 hguard.2
      · cases hs

theorem Tracks.of_reachable {s : History} (h : Reachable History.step Any .init s) : Tracks s :=
  h.invariant .init fun _ a _ hI _ hs => hI.step a hs

/-- The pushes of a host that are not removed are its pushes less its removals. -/
theorem holders_eq (s : History) (host : SockAddr) :
    (Registry.holders Push.holds s.pushes host.host : Int) = s.pushesOf host - s.removesOf host := by
  have hiff : ∀ p : Push, p.holds = some host.host ↔ sockAddrHostareEqual p.key host ∧ p.live := by
    intro p
    rw [sockAddrHostareEqual_iff, Push.holds]
    cases p.live <;> simp
  unfold Registry.holders History.pushesOf History.removesOf
  simp only [hiff, Bool.decide_and, Bool.decide_eq_true]
  induction s.pushes with
  | nil => rfl
  | cons p next ih =>
    simp only [List.countP_cons]
    cases p.live <;> cases sockAddrHostareEqual p.key host <;> simp <;> omega

/-- **The active table invariant.** After every sequence of pushes, conditional pushes and removals of pushes that
are not removed, the hosts of the list are distinct, `count` is its length, the thread count of an entry is
positive and the pushes less the removals of its host, and two pushes whose hosts stayed present share the sum
report exactly when their hosts are equal. -/
theorem active_table_invariant {s : History} (h : Reachable History.step Any .init s) :
    (s.table.root.Pairwise fun e f => sockAddrHostareEqual e.host f.host = false) ∧
      s.table.count = s.table.root.length ∧
      (∀ itr ∈ s.table.root, 1 ≤ itr.threadCount ∧
        itr.threadCount = s.pushesOf itr.host - s.removesOf itr.host) ∧
      ∀ p ∈ s.pushes, ∀ q ∈ s.pushes, p.stayed → q.stayed →
        (p.sumReport = q.sumReport ↔ sockAddrHostareEqual p.key q.key) := by
  have hI := Tracks.of_reachable h
  refine ⟨hI.wellFormed.distinct, hI.wellFormed.count, fun itr hitr => ?_, ?_⟩
  · obtain ⟨hcount, hpos⟩ := hI.counts.of_some (registry_of_mem sumReports hI.wellFormed.distinct hitr)
    rw [← holders_eq, hcount]
    omega
  · intro p hp q hq hpstay hqstay
    obtain ⟨m, hm⟩ := hI.stayed p hp hpstay
    obtain ⟨n, hn⟩ := hI.stayed q hq hqstay
    rw [sockAddrHostareEqual_iff]
    constructor
    · intro heq
      exact hI.separate _ _ _ m n hm (heq ▸ hn)
    · intro heq
      rw [heq, hn, Option.some.injEq, Prod.mk.injEq] at hm
      exact hm.1.symm

/-! A run over both address families: two flows of one host, one of a host of the other family, and a removal. -/

def agentOf (peer : SockAddr) : Agent := ⟨peer, .inet 0 5001, false, 3⟩

def historyRun : List HistoryLabel :=
  [.push (agentOf (.inet 7 1000)) 0, .pushConditional (agentOf (.inet 7 1001)) 1,
    .push (agentOf (.inet6 7 1000)) 1, .remove 0 (agentOf (.inet 7 1000))]

theorem active_table_invariant_run : ∃ s, run History.step Any .init historyRun = some s ∧
    s.table.root.map (·.threadCount) = [1, 1] ∧
    ((s.table.root.Pairwise fun e f => sockAddrHostareEqual e.host f.host = false) ∧
      s.table.count = s.table.root.length ∧
      (∀ itr ∈ s.table.root, 1 ≤ itr.threadCount ∧
        itr.threadCount = s.pushesOf itr.host - s.removesOf itr.host) ∧
      ∀ p ∈ s.pushes, ∀ q ∈ s.pushes, p.stayed → q.stayed →
        (p.sumReport = q.sumReport ↔ sockAddrHostareEqual p.key q.key)) := by
  refine ⟨_, rfl, by decide, ?_⟩
  exact active_table_invariant (.of_run _ _ .start (rfl : run History.step Any .init historyRun = some _))

end Iperf2.Hosts
