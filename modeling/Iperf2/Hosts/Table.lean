import Iperf2.Lib.Registry

/-!
# The table of active hosts

`active_hosts.cpp` with the comparisons of `SocketAddr.c` it rests on. The linked list is a `List`; a search
through the indirect pointer is a recursion that rebuilds the list in front of the entry it edits. The address of
a new `SumReport` is the argument `report`: what `InitSumReport` returns when an entry is made.

The table is a `Registry` from hosts to what their flows share, the sum report (`sumReports`) and the address the
host was pushed with first (`addresses`): `registry` reads it off the list, and `registry_activeTableUpdate`,
`registry_removeEntry` say that a push is an `acquire` and a removal a `release`. `WellFormed` is what the list
needs for that: no host has two entries, and the counters agree with their number.
-/

namespace Iperf2.Hosts

/-! ## Socket addresses -/

/-- `iperf_sockaddr` of family `AF_INET` or `AF_INET6`. -/
inductive SockAddr
  | inet (addr : BitVec 32) (port : BitVec 16)
  | inet6 (addr : BitVec 128) (port : BitVec 16)
  deriving DecidableEq, Repr

/-- `SockAddr_are_Equal` -/
def sockAddrAreEqual : SockAddr → SockAddr → Bool
  | .inet a p, .inet b q => a == b && p == q
  | .inet6 a p, .inet6 b q => a == b && p == q
  | _, _ => false

/-- `SockAddr_Hostare_Equal` -/
def sockAddrHostareEqual : SockAddr → SockAddr → Bool
  | .inet a _, .inet b _ => a == b
  | .inet6 a _, .inet6 b _ => a == b
  | _, _ => false

/-- The part of an address that the host comparison looks at. -/
def SockAddr.host : SockAddr → BitVec 32 ⊕ BitVec 128
  | .inet a _ => .inl a
  | .inet6 a _ => .inr a

theorem sockAddrHostareEqual_iff (a b : SockAddr) : sockAddrHostareEqual a b = true ↔ a.host = b.host := by
  cases a <;> cases b <;> simp [sockAddrHostareEqual, SockAddr.host]

theorem sockAddrAreEqual_iff (a b : SockAddr) : sockAddrAreEqual a b = true ↔ a = b := by
  cases a <;> cases b <;> simp [sockAddrAreEqual]

/-! ## The table -/

/-- The fields of `thread_Settings` that the table reads. -/
structure Agent where
  peer : SockAddr
  localAddr : SockAddr
  sumServerDstIP : Bool
  mSock : Int
  deriving DecidableEq

structure IperfListEntry where
  host : SockAddr
  sumReport : Nat
  threadCount : Int
  socket : Int

structure IperfTable where
  root : List IperfListEntry
  count : Int
  totalCount : Int
  groupid : Int

/-- `Iperf_initialize_active_table` on a table whose counters are zero. -/
def iperfInitializeActiveTable : IperfTable where
  root := []
  count := 0
  totalCount := 0
  groupid := 0

/-- `Iperf_host_present` -/
def iperfHostPresent (root : List IperfListEntry) (find : SockAddr) : Option IperfListEntry :=
  root.find? fun itr => sockAddrHostareEqual itr.host find

/-- `Iperf_host_port_present` -/
def iperfHostPortPresent (root : List IperfListEntry) (find : SockAddr) : Bool :=
  root.any fun itr => sockAddrAreEqual itr.host find

/-- The list with the thread count of the entry that `Iperf_host_present` finds incremented. -/
def incrThreadCount (host : SockAddr) : List IperfListEntry → List IperfListEntry
  | [] => []
  | itr :: next =>
    if sockAddrHostareEqual itr.host host then { itr with threadCount := itr.threadCount + 1 } :: next
    else itr :: incrThreadCount host next

/-- `active_table_update`, with the sum report the agent is given. -/
def activeTableUpdate (table : IperfTable) (host : SockAddr) (agent : Agent) (report : Nat) :
    IperfTable × Nat :=
  match iperfHostPresent table.root host with
  | none =>
    ({ root := { host, sumReport := report, threadCount := 1, socket := agent.mSock } :: table.root
       count := table.count + 1
       totalCount := table.totalCount + 1
       groupid := table.groupid + 1 }, report)
  | some thisEntry =>
    ({ table with
       root := incrThreadCount host table.root
       totalCount := table.totalCount + 1 }, thisEntry.sumReport)

/-- `active_table_get_host_key` -/
def activeTableGetHostKey (agent : Agent) : SockAddr :=
  if agent.sumServerDstIP then agent.localAddr else agent.peer

/-- `Iperf_push_host`: the table, the agent's `mSumReport` and the group id returned. -/
def iperfPushHost (table : IperfTable) (agent : Agent) (report : Nat) : IperfTable × Nat × Int :=
  let updated := activeTableUpdate table (activeTableGetHostKey agent) agent report
  (updated.1, updated.2, updated.1.groupid)

/-- `Iperf_push_host_port_conditional`: the table, the agent's `mSumReport` if it was pushed, and the return
value. -/
def iperfPushHostPortConditional (table : IperfTable) (agent : Agent) (report : Nat) :
    IperfTable × Option Nat × Int :=
  let host := activeTableGetHostKey agent
  if iperfHostPortPresent table.root host then (table, none, -1)
  else
    let updated := activeTableUpdate table host agent report
    (updated.1, some updated.2, updated.1.groupid)

/-- The loop of `Iperf_remove_host` and the edit at the entry it stops at: the list, and whether an entry was
deleted. -/
def removeEntry (del : SockAddr) : List IperfListEntry → List IperfListEntry × Bool
  | [] => ([], false)
  | tmp :: next =>
    if sockAddrHostareEqual tmp.host del then
      if tmp.threadCount - 1 = 0 then (next, true)
      else ({ tmp with threadCount := tmp.threadCount - 1 } :: next, false)
    else
      let rest := removeEntry del next
      (tmp :: rest.1, rest.2)

/-- `Iperf_remove_host` -/
def iperfRemoveHost (table : IperfTable) (agent : Agent) : IperfTable :=
  let removed := removeEntry (activeTableGetHostKey agent) table.root
  { table with
    root := removed.1
    count := if removed.2 then table.count - 1 else table.count }

/-! ## The table as a registry -/

abbrev Host := BitVec 32 ⊕ BitVec 128

/-- A field of the entries that does not depend on the thread count. -/
structure EntryValue (V : Type) where
  read : IperfListEntry → V
  read_threadCount : ∀ itr n, read { itr with threadCount := n } = read itr

/-- The value and the thread count the list has for a host. -/
def registry {V : Type} (value : EntryValue V) (root : List IperfListEntry) : Registry Host V := fun h =>
  (root.find? fun itr => itr.host.host = h).map fun itr => (value.read itr, itr.threadCount)

/-- The sum reports of the hosts. -/
def sumReports : EntryValue Nat := ⟨(·.sumReport), fun _ _ => rfl⟩

/-- The addresses the hosts were pushed with first. -/
def addresses : EntryValue SockAddr := ⟨(·.host), fun _ _ => rfl⟩

theorem iperfHostPresent_eq (root : List IperfListEntry) (find : SockAddr) :
    iperfHostPresent root find = root.find? fun itr => itr.host.host = find.host := by
  unfold iperfHostPresent
  congr 1
  funext itr
  rw [Bool.eq_iff_iff, sockAddrHostareEqual_iff, decide_eq_true_iff]

section
variable {V : Type} (value : EntryValue V)

theorem registry_host (root : List IperfListEntry) (find : SockAddr) :
    registry value root find.host =
      (iperfHostPresent root find).map fun itr => (value.read itr, itr.threadCount) := by
  rw [iperfHostPresent_eq]
  rfl

theorem registry_nil : registry value [] = fun _ => none := rfl

theorem registry_cons (itr : IperfListEntry) (next : List IperfListEntry) :
    registry value (itr :: next) =
      Function.update (registry value next) itr.host.host (some (value.read itr, itr.threadCount)) := by
  funext h
  by_cases hh : h = itr.host.host
  · subst hh
    simp [registry]
  · rw [Function.update_of_ne hh]
    simp [registry, Ne.symm hh]

theorem registry_mem {root : List IperfListEntry} {h : Host} {w : V} {n : Int}
    (hr : registry value root h = some (w, n)) :
    ∃ itr ∈ root, itr.host.host = h ∧ value.read itr = w ∧ itr.threadCount = n := by
  obtain ⟨itr, hfind, hpair⟩ := Option.map_eq_some_iff.mp hr
  cases hpair
  have hhost := List.find?_some hfind
  exact ⟨itr, List.mem_of_find?_eq_some hfind, by simpa using hhost, rfl, rfl⟩

theorem registry_incrThreadCount (host : SockAddr) (root : List IperfListEntry) {w : V} {n : Int}
    (h : registry value root host.host = some (w, n)) :
    registry value (incrThreadCount host root) =
      Function.update (registry value root) host.host (some (w, n + 1)) := by
  induction root with
  | nil => cases h
  | cons itr next ih =>
    unfold incrThreadCount
    rw [registry_cons] at h
    by_cases hit : sockAddrHostareEqual itr.host host
    · rw [if_pos hit, registry_cons, registry_cons, value.read_threadCount]
      have hhost := (sockAddrHostareEqual_iff _ _).mp hit
      rw [← hhost, Function.update_self] at h
      cases h
      rw [← hhost, Function.update_idem]
    · rw [if_neg hit, registry_cons, registry_cons]
      have hhost : host.host ≠ itr.host.host := fun he => hit ((sockAddrHostareEqual_iff _ _).mpr he.symm)
      rw [Function.update_of_ne hhost] at h
      rw [ih h, Function.update_comm hhost]

/-- A push acquires the host of its key. -/
theorem registry_activeTableUpdate (table : IperfTable) (host : SockAddr) (agent : Agent) (report : Nat) :
    registry value (activeTableUpdate table host agent report).1.root =
      Registry.acquire (registry value table.root) host.host
        (value.read { host, sumReport := report, threadCount := 1, socket := agent.mSock }) := by
  unfold activeTableUpdate
  cases hp : iperfHostPresent table.root host with
  | none =>
    have hnone : registry value table.root host.host = none := by rw [registry_host, hp]; rfl
    rw [Registry.acquire_of_none hnone]
    exact registry_cons value _ _
  | some itr =>
    have hsome : registry value table.root host.host = some (value.read itr, itr.threadCount) := by
      rw [registry_host, hp]; rfl
    rw [Registry.acquire_of_some hsome]
    exact registry_incrThreadCount value host table.root hsome

end

/-- The sum report an agent gets is the shared one. -/
theorem activeTableUpdate_sumReport (table : IperfTable) (host : SockAddr) (agent : Agent) (report : Nat) :
    (activeTableUpdate table host agent report).2 =
      Registry.shared (registry sumReports table.root) host.host report := by
  unfold activeTableUpdate Registry.shared
  rw [registry_host]
  cases iperfHostPresent table.root host <;> rfl

/-! ## Well-formed tables -/

/-- No host has two entries, `count` is their number, and there were at least as many groups. -/
structure WellFormed (table : IperfTable) : Prop where
  distinct : table.root.Pairwise fun e f => sockAddrHostareEqual e.host f.host = false
  count : table.count = table.root.length
  groupid : (table.root.length : Int) ≤ table.groupid

theorem WellFormed.init : WellFormed iperfInitializeActiveTable := ⟨List.Pairwise.nil, rfl, Int.le_refl 0⟩

theorem hostareEqual_false_iff (a b : SockAddr) : sockAddrHostareEqual a b = false ↔ a.host ≠ b.host := by
  rw [← Bool.not_eq_true, sockAddrHostareEqual_iff]

/-- An increment keeps the hosts of the list. -/
theorem map_host_incrThreadCount (host : SockAddr) (root : List IperfListEntry) :
    (incrThreadCount host root).map (·.host) = root.map (·.host) := by
  induction root with
  | nil => rfl
  | cons itr next ih =>
    unfold incrThreadCount
    split
    · rfl
    · rw [List.map_cons, List.map_cons, ih]

theorem distinct_iff (root : List IperfListEntry) :
    (root.Pairwise fun e f => sockAddrHostareEqual e.host f.host = false) ↔
      (root.map (·.host)).Pairwise fun a b => sockAddrHostareEqual a b = false := by
  rw [List.pairwise_map]

theorem length_incrThreadCount (host : SockAddr) (root : List IperfListEntry) :
    (incrThreadCount host root).length = root.length := by
  have := congrArg List.length (map_host_incrThreadCount host root)
  rwa [List.length_map, List.length_map] at this

theorem WellFormed.activeTableUpdate {table : IperfTable} (h : WellFormed table) (host : SockAddr)
    (agent : Agent) (report : Nat) : WellFormed (activeTableUpdate table host agent report).1 := by
  unfold Hosts.activeTableUpdate
  have hgroupid := h.groupid
  cases hp : iperfHostPresent table.root host with
  | none =>
    refine ⟨List.pairwise_cons.mpr ⟨fun itr hitr => ?_, h.distinct⟩, ?_, ?_⟩
    · have := List.find?_eq_none.mp hp itr hitr
      rw [sockAddrHostareEqual_iff] at this
      rw [hostareEqual_false_iff]
      exact fun he => this he.symm
    · simp only [List.length_cons, h.count]
      omega
    · simp only [List.length_cons]
      omega
  | some itr =>
    refine ⟨?_, ?_, ?_⟩
    · rw [distinct_iff, map_host_incrThreadCount, ← distinct_iff]
      exact h.distinct
    · simp only [length_incrThreadCount, h.count]
    · simp only [length_incrThreadCount]
      exact hgroupid

/-- The group id a push returns is positive. -/
theorem WellFormed.groupid_pos {table : IperfTable} (h : WellFormed table) (host : SockAddr) (agent : Agent)
    (report : Nat) : 0 < (Hosts.activeTableUpdate table host agent report).1.groupid := by
  have hgroupid := h.groupid
  unfold Hosts.activeTableUpdate
  cases hp : iperfHostPresent table.root host with
  | none =>
    simp only
    omega
  | some itr =>
    have := List.length_pos_of_mem (List.mem_of_find?_eq_some hp)
    simp only
    omega

/-- A removal only drops hosts. -/
theorem map_host_removeEntry (del : SockAddr) (root : List IperfListEntry) :
    ((removeEntry del root).1.map (·.host)).Sublist (root.map (·.host)) := by
  induction root with
  | nil => exact List.Sublist.refl _
  | cons itr next ih =>
    unfold removeEntry
    split
    · split
      · exact List.sublist_cons_self _ _
      · exact List.Sublist.refl _
    · exact ih.cons_cons _

theorem length_removeEntry (del : SockAddr) (root : List IperfListEntry) :
    ((removeEntry del root).1.length : Int) =
      if (removeEntry del root).2 then (root.length : Int) - 1 else root.length := by
  induction root with
  | nil => rfl
  | cons itr next ih =>
    unfold removeEntry
    split
    · split <;> simp
    · simp only [List.length_cons, Int.natCast_add, Int.cast_ofNat_Int, ih]
      split <;> omega

theorem WellFormed.iperfRemoveHost {table : IperfTable} (h : WellFormed table) (agent : Agent) :
    WellFormed (iperfRemoveHost table agent) := by
  have hlen := length_removeEntry (activeTableGetHostKey agent) table.root
  have hgroupid := h.groupid
  refine ⟨?_, ?_, ?_⟩
  · rw [distinct_iff]
    exact ((distinct_iff _).mp h.distinct).sublist (map_host_removeEntry _ _)
  · simp only [Hosts.iperfRemoveHost, hlen, h.count]
  · simp only [Hosts.iperfRemoveHost, hlen]
    split <;> omega

section
variable {V : Type} (value : EntryValue V)

/-- With distinct hosts, every entry is the one its host finds. -/
theorem registry_of_mem {root : List IperfListEntry} {itr : IperfListEntry}
    (hd : root.Pairwise fun e f => sockAddrHostareEqual e.host f.host = false) (hmem : itr ∈ root) :
    registry value root itr.host.host = some (value.read itr, itr.threadCount) := by
  induction root with
  | nil => cases hmem
  | cons e next ih =>
    obtain ⟨hhead, hnext⟩ := List.pairwise_cons.mp hd
    rw [registry_cons]
    rcases List.mem_cons.mp hmem with rfl | hmem
    · rw [Function.update_self]
    · have hne := (hostareEqual_false_iff _ _).mp (hhead itr hmem)
      rw [Function.update_of_ne (Ne.symm hne)]
      exact ih hnext hmem

/-- A removal releases the host of its key. -/
theorem registry_removeEntry (del : SockAddr) (root : List IperfListEntry)
    (hd : root.Pairwise fun e f => sockAddrHostareEqual e.host f.host = false) :
    registry value (removeEntry del root).1 = Registry.release (registry value root) del.host := by
  induction root with
  | nil =>
    funext h
    by_cases hh : h = del.host
    · subst hh
      simp [Registry.release, removeEntry, registry_nil]
    · rw [Registry.release_ne hh]
      rfl
  | cons itr next ih =>
    obtain ⟨hhead, hnext⟩ := List.pairwise_cons.mp hd
    unfold removeEntry
    by_cases hit : sockAddrHostareEqual itr.host del
    · have hhost := (sockAddrHostareEqual_iff _ _).mp hit
      -- the rest of the list has no entry of this host
      have hnone : registry value next del.host = none := by
        rw [registry_host]
        have : iperfHostPresent next del = none := by
          refine List.find?_eq_none.mpr fun e he => ?_
          rw [sockAddrHostareEqual_iff, ← hhost]
          exact fun heq => (hostareEqual_false_iff _ _).mp (hhead e he) heq.symm
        rw [this]
        rfl
      have hself : registry value (itr :: next) del.host = some (value.read itr, itr.threadCount) := by
        rw [registry_cons, ← hhost, Function.update_self]
      rw [if_pos hit]
      unfold Registry.release
      rw [hself]
      simp only
      split
      · rw [registry_cons, hhost, Function.update_idem]
        exact (Function.update_eq_self_iff.mpr hnone.symm).symm
      · rw [registry_cons, registry_cons, hhost, Function.update_idem, value.read_threadCount]
    · have hhost : del.host ≠ itr.host.host := fun he => hit ((sockAddrHostareEqual_iff _ _).mpr he.symm)
      rw [if_neg hit]
      simp only
      rw [registry_cons, registry_cons, ih hnext]
      unfold Registry.release
      rw [Function.update_of_ne hhost, Function.update_comm hhost]

theorem registry_iperfRemoveHost {table : IperfTable} (h : WellFormed table) (agent : Agent) :
    registry value (iperfRemoveHost table agent).root =
      Registry.release (registry value table.root) (activeTableGetHostKey agent).host :=
  registry_removeEntry value _ _ h.distinct

end

/-- A host and port are there exactly when the host was pushed with that port first. -/
theorem iperfHostPortPresent_iff {table : IperfTable} (h : WellFormed table) (find : SockAddr) :
    iperfHostPortPresent table.root find ↔ ∃ n, registry addresses table.root find.host = some (find, n) := by
  unfold iperfHostPortPresent
  simp only [List.any_eq_true, sockAddrAreEqual_iff]
  constructor
  · rintro ⟨itr, hmem, rfl⟩
    exact ⟨_, registry_of_mem addresses h.distinct hmem⟩
  · rintro ⟨n, hn⟩
    obtain ⟨itr, hmem, -, hread, -⟩ := registry_mem addresses hn
    exact ⟨itr, hmem, hread⟩

/-! ## The addresses of new sum reports -/

/-- No entry points to the memory the allocator returns. -/
def Unallocated (root : List IperfListEntry) (report : Nat) : Prop := ∀ itr ∈ root, itr.sumReport ≠ report

instance (root : List IperfListEntry) (report : Nat) : Decidable (Unallocated root report) := by
  unfold Unallocated
  infer_instance

theorem Unallocated.fresh {root : List IperfListEntry} {report : Nat} (h : Unallocated root report) :
    ∀ j w n, registry sumReports root j = some (w, n) → w ≠ report := by
  intro j w n hj
  obtain ⟨itr, hmem, -, rfl, -⟩ := registry_mem sumReports hj
  exact h itr hmem

end Iperf2.Hosts
