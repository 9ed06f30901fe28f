import Iperf2.Lib.Transition
import Mathlib.Data.Fintype.Card

/-!
# A counter of arrivals that fires for a whole group

Members join a group, arrive again and again, and leave. A counter is set back when as many arrivals have come as the
group has members (or another fixed `size`); what came since the last time is then one round. The counter does not
know whose arrivals it counts. A member may skip arrivals, which nobody counts.

* `step` : the group as a transition system, with the arrivals of every round in its history;
* `Reachable.count_eq` : the count of members is their number;
* `Armed`, `KeepsRoom` : the counter is below the count as long as no member leaves at the last missing arrival;
  `armed_of_reachable`, `Armed.fires`, and `Armed.step_iff`, a step that does not meet the condition leaves it at the
  count or above;
* `Round.Pairs`, `InTurn` : every round has each member once, with the number of the round, as long as no member comes
  out of turn; `pairs_of_reachable`, and `not_pairs`, an event out of turn spoils the round that it falls in.
-/

namespace Trigger
open Transition

variable {ι : Type*}

/-- An arrival of a member, and how often it had come before. -/
structure Arrival (ι : Type*) where
  member : ι
  number : Nat

/-- What came between two times that the counter fired, and the members at the end. -/
structure Round (ι : Type*) where
  arrivals : List (Arrival ι)
  running : ι → Bool

/-- The group, with its history. -/
structure State (ι : Type*) where
  joined : ι → Bool
  gone : ι → Bool
  threads : Int
  count : Int
  came : ι → Nat
  opened : List (Arrival ι)
  rounds : List (Round ι)

/-- An arrival may be one that cannot fire the counter, and may be followed by some that are skipped. A member that
leaves brings what it has left. -/
inductive Event (ι : Type*)
  | join (i : ι)
  | arrive (i : ι) (may : Bool) (skipped : Nat)
  | leave (i : ι)

def State.empty : State ι where
  joined := fun _ => false
  gone := fun _ => false
  threads := 0
  count := 0
  came := fun _ => 0
  opened := []
  rounds := []

def State.running (s : State ι) (i : ι) : Bool := s.joined i && !s.gone i

section
variable [DecidableEq ι] (size : Option Int)

def step (s : State ι) : Event ι → Option (State ι)
  | .join i =>
    if s.joined i then none
    else some { s with
      joined := Function.update s.joined i true
      count := s.count + 1 }
  | .arrive i may skipped =>
    if s.running i then
      let came := Function.update s.came i (s.came i + 1 + skipped)
      let opened := s.opened ++ [⟨i, s.came i⟩]
      if s.threads + 1 = size.getD s.count ∧ may then
        some { s with
          came
          threads := 0
          opened := []
          rounds := s.rounds ++ [⟨opened, s.running⟩] }
      else some { s with
        came
        opened
        threads := s.threads + 1 }
    else none
  | .leave i =>
    if s.running i then
      some { s with
        gone := Function.update s.gone i true
        count := s.count - 1
        opened := s.opened ++ [⟨i, s.came i⟩] }
    else none

end

theorem State.running_iff {s : State ι} {i : ι} :
    s.running i = true ↔ s.joined i = true ∧ s.gone i = false := by
  simp [State.running]

/-! ## The number of members -/

/-- What one event does to the group: who joins, comes or leaves. -/
theorem step_cases [DecidableEq ι] {size : Option Int} {s s' : State ι} {e : Event ι}
    (hstep : step size s e = some s') :
    (∃ i, e = .join i ∧ s.joined i = false ∧
      s' = { s with
        joined := Function.update s.joined i true
        count := s.count + 1 }) ∨
    (∃ i may skipped, e = .arrive i may skipped ∧ s.running i = true ∧ (s.threads + 1 = size.getD s.count ∧ may = true) ∧
      s' = { s with
        came := Function.update s.came i (s.came i + 1 + skipped)
        threads := 0
        opened := []
        rounds := s.rounds ++ [⟨s.opened ++ [⟨i, s.came i⟩], s.running⟩] }) ∨
    (∃ i may skipped, e = .arrive i may skipped ∧ s.running i = true ∧ ¬ (s.threads + 1 = size.getD s.count ∧ may = true) ∧
      s' = { s with
        came := Function.update s.came i (s.came i + 1 + skipped)
        opened := s.opened ++ [⟨i, s.came i⟩]
        threads := s.threads + 1 }) ∨
    (∃ i, e = .leave i ∧ s.running i = true ∧
      s' = { s with
        gone := Function.update s.gone i true
        count := s.count - 1
        opened := s.opened ++ [⟨i, s.came i⟩] }) := by
  cases e with
  | join i =>
    simp only [step] at hstep
    split at hstep <;> cases hstep
    exact .inl ⟨i, rfl, Bool.eq_false_iff.mpr ‹_›, rfl⟩
  | arrive i may skipped =>
    simp only [step] at hstep
    split at hstep
    · split at hstep <;> cases hstep
      · exact .inr (.inl ⟨i, may, skipped, rfl, ‹_›, ‹_›, rfl⟩)
      · exact .inr (.inr (.inl ⟨i, may, skipped, rfl, ‹_›, ‹_›, rfl⟩))
    · cases hstep
  | leave i =>
    simp only [step] at hstep
    split at hstep <;> cases hstep
    exact .inr (.inr (.inr ⟨i, rfl, ‹_›, rfl⟩))

section
variable [Fintype ι] {s s' : State ι}

/-- The members that run. -/
def State.members (s : State ι) : Finset ι := Finset.univ.filter fun i => s.running i = true

@[simp] theorem State.mem_members {i : ι} : i ∈ s.members ↔ s.running i = true := by
  simp [State.members]

variable [DecidableEq ι]

theorem members_join {i : ι} (hi : s.gone i = false) (hjoined : s'.joined = Function.update s.joined i true)
    (hgone : s'.gone = s.gone) : s'.members = insert i s.members := by
  ext j
  rw [State.mem_members, Finset.mem_insert, State.mem_members, State.running_iff, State.running_iff, hjoined, hgone]
  by_cases hj : j = i
  · subst hj
    simp [hi]
  · simp [hj]

theorem members_leave {i : ι} (hjoined : s'.joined = s.joined) (hgone : s'.gone = Function.update s.gone i true) :
    s'.members = s.members.erase i := by
  ext j
  rw [State.mem_members, Finset.mem_erase, State.mem_members, State.running_iff, State.running_iff, hjoined, hgone]
  by_cases hj : j = i
  · subst hj
    simp
  · simp [hj]

/-- Nobody came or left before it joined, and the count is right. -/
structure Counted (s : State ι) : Prop where
  count : s.count = s.members.card
  came : ∀ i, s.joined i = false → s.came i = 0
  gone : ∀ i, s.joined i = false → s.gone i = false
  opened : ∀ a ∈ s.opened, s.joined a.member = true

omit [DecidableEq ι] in
theorem Counted.empty : Counted (.empty : State ι) where
  count := by simp [State.empty, State.members, State.running]
  came _ _ := rfl
  gone _ _ := rfl
  opened a ha := by cases ha

omit [DecidableEq ι] in
theorem Counted.pos {i : ι} (h : Counted s) (hi : s.running i = true) : 0 < s.count := by
  rw [h.count]
  exact_mod_cast Finset.card_pos.mpr ⟨i, State.mem_members.mpr hi⟩

variable {size : Option Int} {G : State ι → Event ι → Prop}

theorem Counted.join {i : ι} (h : Counted s) (hi : s.joined i = false)
    (hjoined : s'.joined = Function.update s.joined i true) (hgone : s'.gone = s.gone)
    (hcount : s'.count = s.count + 1) (hcame : s'.came = s.came) (hopened : s'.opened = s.opened) : Counted s' := by
  have hmem : i ∉ s.members := by simp [State.running, hi]
  have hbefore : ∀ j, s'.joined j = false → s.joined j = false := by
    intro j hj
    have hne : j ≠ i := by
      rintro rfl
      simp [hjoined] at hj
    rwa [hjoined, Function.update_of_ne hne] at hj
  refine ⟨?_, fun j hj => ?_, fun j hj => ?_, fun a ha => ?_⟩
  · rw [hcount, members_join (h.gone i hi) hjoined hgone, Finset.card_insert_of_notMem hmem, h.count]
    push_cast
    rfl
  · rw [hcame]
    exact h.came j (hbefore j hj)
  · rw [hgone]
    exact h.gone j (hbefore j hj)
  · by_contra hj
    rw [hopened] at ha
    exact absurd (h.opened a ha) (by simp [hbefore a.member (by simpa using hj)])

/-- Somebody who runs comes; what is left open is from members. -/
theorem Counted.arrive {i : ι} {n : Nat} (h : Counted s) (hi : s.running i = true)
    (hjoined : s'.joined = s.joined) (hgone : s'.gone = s.gone) (hcount : s'.count = s.count)
    (hcame : s'.came = Function.update s.came i n)
    (hopened : ∀ a ∈ s'.opened, a ∈ s.opened ∨ a.member = i) : Counted s' := by
  have hjoins := (State.running_iff.mp hi).1
  have hmembers : s'.members = s.members := by
    ext j
    rw [State.mem_members, State.mem_members, State.running, State.running, hjoined, hgone]
  refine ⟨?_, fun j hj => ?_, fun j hj => ?_, fun a ha => ?_⟩
  · rw [hcount, hmembers, h.count]
  · rw [hjoined] at hj
    have hne : j ≠ i := by
      rintro rfl
      exact absurd hjoins (by simp [hj])
    rw [hcame, Function.update_of_ne hne]
    exact h.came j hj
  · rw [hjoined] at hj
    rw [hgone]
    exact h.gone j hj
  · rw [hjoined]
    rcases hopened a ha with ha | ha
    · exact h.opened a ha
    · rw [ha]
      exact hjoins

theorem Counted.leave {i : ι} (h : Counted s) (hi : s.running i = true) (hjoined : s'.joined = s.joined)
    (hgone : s'.gone = Function.update s.gone i true) (hcount : s'.count = s.count - 1) (hcame : s'.came = s.came)
    (hopened : s'.opened = s.opened ++ [⟨i, s.came i⟩]) : Counted s' := by
  have hjoins := (State.running_iff.mp hi).1
  have hpos := h.pos hi
  refine ⟨?_, fun j hj => ?_, fun j hj => ?_, fun a ha => ?_⟩
  · rw [hcount, members_leave hjoined hgone, Finset.card_erase_of_mem (State.mem_members.mpr hi)]
    have hcard := h.count
    omega
  · rw [hcame]
    rw [hjoined] at hj
    exact h.came j hj
  · rw [hjoined] at hj
    have hne : j ≠ i := by
      rintro rfl
      exact absurd hjoins (by simp [hj])
    rw [hgone, Function.update_of_ne hne]
    exact h.gone j hj
  · rw [hjoined]
    rw [hopened] at ha
    rcases List.mem_append.mp ha with ha | ha
    · exact h.opened a ha
    · rw [List.mem_singleton.mp ha]
      exact hjoins

theorem Counted.next {e : Event ι} (h : Counted s) (hstep : step size s e = some s') : Counted s' := by
  obtain ⟨i, -, hi, rfl⟩ | ⟨i, may, skipped, -, hi, -, rfl⟩ | ⟨i, may, skipped, -, hi, -, rfl⟩ | ⟨i, -, hi, rfl⟩ :=
    step_cases hstep
  · exact h.join hi rfl rfl rfl rfl rfl
  · exact h.arrive hi rfl rfl rfl rfl nofun
  · refine h.arrive hi rfl rfl rfl rfl fun a ha => ?_
    exact (List.mem_append.mp ha).imp_right fun ha => by rw [List.mem_singleton.mp ha]
  · exact h.leave hi rfl rfl rfl rfl rfl

theorem counted_of_reachable (h : Reachable (step size) G .empty s) : Counted s :=
  h.invariant .empty fun _ _ _ hs _ hstep => hs.next hstep

/-! ## The counter is below the count -/

/-- The counter is below the count, or at its start. -/
structure Armed (s : State ι) : Prop where
  nonneg : 0 ≤ s.threads
  below : s.threads < s.count ∨ s.threads = 0

/-- A member leaves only when more arrivals than its own are missing, or when it is the last one. Every arrival may fire
the counter. -/
def KeepsRoom (s : State ι) : Event ι → Prop
  | .join _ => True
  | .arrive _ may _ => may = true
  | .leave _ => s.threads + 1 < s.count ∨ s.count = 1

theorem Armed.next {e : Event ι} (h : Armed s) (hcounted : Counted s) (hroom : KeepsRoom s e)
    (hstep : step none s e = some s') : Armed s' := by
  obtain ⟨hnonneg, hbelow⟩ := h
  obtain ⟨i, -, hi, rfl⟩ | ⟨i, may, skipped, -, hi, -, rfl⟩ | ⟨i, may, skipped, rfl, hi, hwaits, rfl⟩ |
    ⟨i, rfl, hi, rfl⟩ := step_cases hstep
  · refine ⟨hnonneg, hbelow.imp_left fun h => ?_⟩
    simp only
    omega
  · exact ⟨le_rfl, .inr rfl⟩
  · -- an arrival that does not fire is not the last one that is missing
    have hpos := hcounted.pos hi
    have hne : s.threads + 1 ≠ s.count := fun heq => hwaits ⟨heq, hroom⟩
    refine ⟨?_, .inl ?_⟩ <;> simp only <;> omega
  · refine ⟨hnonneg, ?_⟩
    rcases hroom with hroom | hlast
    · left
      simp only
      omega
    · right
      simp only
      omega

theorem armed_of_reachable (h : Reachable (step none) KeepsRoom .empty s) : Armed s := by
  have hboth : Counted s ∧ Armed s := by
    apply h.invariant
    · exact ⟨.empty, le_rfl, .inr rfl⟩
    · exact fun _ _ _ ⟨hcounted, harmed⟩ hroom hstep => ⟨hcounted.next hstep, harmed.next hcounted hroom hstep⟩
  exact hboth.2

/-- Arrivals that may fire, and nothing else. -/
def Arrivals (_ : State ι) (e : Event ι) : Prop := ∃ i skipped, e = .arrive i true skipped

/-- The arrivals that are missing make a round. -/
theorem Armed.fires (h : Armed s) (hcounted : Counted s) (hsome : 0 < s.count)
    (hrun : Reachable (step none) Arrivals s s') :
    s.rounds.length < s'.rounds.length ∨
      (s'.opened.length : Int) + s.threads < s.opened.length + s.count := by
  have hkept : Counted s' ∧ Armed s' ∧ s'.count = s.count ∧ s.rounds.length ≤ s'.rounds.length ∧
      (s.rounds.length < s'.rounds.length ∨
        (s'.opened.length : Int) - s'.threads = s.opened.length - s.threads) := by
    apply hrun.invariant
    · exact ⟨hcounted, h, rfl, le_rfl, .inr rfl⟩
    · rintro u e u' ⟨hcounted, harmed, hcount, hlength, hopened⟩ ⟨i, skipped, rfl⟩ hstep
      have hmay : KeepsRoom u (.arrive i true skipped) := rfl
      refine ⟨hcounted.next hstep, harmed.next hcounted hmay hstep, ?_⟩
      obtain ⟨j, hj, -, -⟩ | ⟨j, may, n, -, -, -, rfl⟩ | ⟨j, may, n, -, -, -, rfl⟩ | ⟨j, hj, -, -⟩ := step_cases hstep
      · cases hj
      · refine ⟨hcount, ?_, .inl ?_⟩ <;> simp only [List.length_append, List.length_singleton] <;> omega
      · refine ⟨hcount, hlength, hopened.imp_right fun heq => ?_⟩
        simp only [List.length_append, List.length_singleton]
        push_cast
        omega
      · cases hj
  obtain ⟨-, harmed, hcount, -, hnew | hopened⟩ := hkept
  · exact .inl hnew
  · right
    have hbelow := harmed.below
    omega

omit [Fintype ι] [DecidableEq ι] in
theorem Armed.lt_count (h : Armed s) (hsome : 0 < s.count) : s.threads < s.count := by
  have hbelow := h.below
  omega

/-- A member that leaves at the last missing arrival leaves the counter at the count. -/
theorem Armed.step_iff {e : Event ι} (h : Armed s) (hcounted : Counted s) (hmay : ∀ i skipped, e ≠ .arrive i false skipped)
    (hstep : step none s e = some s') : (0 < s'.count → s'.threads < s'.count) ↔ KeepsRoom s e := by
  refine ⟨fun hnext => ?_, fun hroom => (h.next hcounted hroom hstep).lt_count⟩
  cases e with
  | join i => trivial
  | arrive i may skipped =>
    cases may with
    | true => rfl
    | false => exact absurd rfl (hmay i skipped)
  | leave i =>
    obtain ⟨i', h', -, -⟩ | ⟨i', may, n, h', -, -, -⟩ | ⟨i', may, n, h', -, -, -⟩ | ⟨i', h', hi, rfl⟩ :=
      step_cases hstep
    · cases h'
    · cases h'
    · cases h'
    · have hpos := hcounted.pos hi
      simp only at hnext
      simp only [KeepsRoom]
      omega

/-! ## Every member once -/

omit [Fintype ι] [DecidableEq ι] in
/-- Each member that runs came once, and so did those that left; all with the number of the round. -/
structure Round.Pairs (r : Round ι) (k : Nat) : Prop where
  once : (r.arrivals.map Arrival.member).Nodup
  number : ∀ a ∈ r.arrivals, a.number = k
  all : ∀ i, r.running i = true → i ∈ r.arrivals.map Arrival.member

/-- The member of an event. -/
def Event.member : Event ι → ι
  | .join i => i
  | .arrive i _ _ => i
  | .leave i => i

/-- A member joins, comes and leaves only when it has come as often as there were rounds. -/
def InTurn (s : State ι) (e : Event ι) : Prop := s.came e.member = s.rounds.length

/-- Who came in the round that is open. -/
def State.present (s : State ι) : List ι := s.opened.map Arrival.member

/-- All rounds are whole, and in the open one a member came once or is still missing. -/
structure Level (s : State ι) : Prop where
  rounds : ∀ k (hk : k < s.rounds.length), (s.rounds[k]).Pairs k
  once : s.present.Nodup
  number : ∀ a ∈ s.opened, a.number = s.rounds.length
  missing : ∀ i, s.running i = true → i ∉ s.present → s.rounds.length ≤ s.came i
  came : ∀ i, s.running i = true → i ∈ s.present → s.rounds.length < s.came i
  threads : s.threads = (s.members.filter fun i => i ∈ s.present).card

omit [Fintype ι] [DecidableEq ι] in
theorem mem_present {i : ι} : i ∈ s.present ↔ ∃ a ∈ s.opened, a.member = i := by
  simp [State.present]

/-- A fixed size is that of all members. -/
def Fits (ι : Type*) [Fintype ι] (size : Option Int) : Prop := ∀ n ∈ size, (Fintype.card ι : Int) ≤ n

omit [DecidableEq ι] in
theorem Counted.card_le (h : Counted s) (hsize : Fits ι size) : (s.members.card : Int) ≤ size.getD s.count := by
  cases size with
  | none =>
    rw [Option.getD_none, h.count]
  | some n =>
    rw [Option.getD_some]
    have hcard : s.members.card ≤ Fintype.card ι := Finset.card_le_univ s.members
    have hn := hsize n rfl
    omega

namespace Level

theorem empty : Level (.empty : State ι) where
  rounds k hk := absurd hk (Nat.not_lt_zero k)
  once := List.nodup_nil
  number _ ha := by cases ha
  missing _ _ _ := Nat.zero_le _
  came _ _ hi := by cases hi
  threads := by simp [State.empty, State.present]

/-- A member that comes in turn did not come in this round yet. -/
theorem not_present {i : ι} (h : Level s) (hi : s.running i = true) (hturn : s.came i = s.rounds.length) :
    i ∉ s.present := by
  intro hpresent
  have hlt := h.came i hi hpresent
  omega

/-- With a member in turn the open round still has every member at most once, with its number. -/
theorem opened_append {i : ι} (h : Level s) (hi : s.running i = true) (hturn : s.came i = s.rounds.length) :
    ((s.opened ++ [(⟨i, s.came i⟩ : Arrival ι)]).map Arrival.member).Nodup ∧
      ∀ a ∈ s.opened ++ [(⟨i, s.came i⟩ : Arrival ι)], a.number = s.rounds.length := by
  constructor
  · rw [List.map_append]
    apply List.Nodup.append h.once (List.nodup_singleton i)
    simpa using h.not_present hi hturn
  · intro a ha
    rcases List.mem_append.mp ha with ha | ha
    · exact h.number a ha
    · rw [List.mem_singleton.mp ha]
      exact hturn

theorem join {i : ι} (h : Level s) (hcounted : Counted s) (hi : s.joined i = false)
    (hturn : s.came i = s.rounds.length) :
    Level { s with
      joined := Function.update s.joined i true
      count := s.count + 1 } := by
  have hmembers : State.members { s with
      joined := Function.update s.joined i true
      count := s.count + 1 } = insert i s.members := members_join (hcounted.gone i hi) rfl rfl
  have habsent : i ∉ s.present := by
    intro hpresent
    obtain ⟨a, ha, rfl⟩ := mem_present.mp hpresent
    rw [hcounted.opened a ha] at hi
    cases hi
  have hbefore : ∀ j, j ≠ i → State.running { s with
      joined := Function.update s.joined i true
      count := s.count + 1 } j = s.running j := fun j hj => by simp [State.running, hj]
  refine ⟨h.rounds, h.once, h.number, fun j hj hpresent => ?_, fun j hj hpresent => ?_, ?_⟩
  · by_cases heq : j = i
    · subst heq
      exact hturn.ge
    · rw [hbefore j heq] at hj
      exact h.missing j hj hpresent
  · have heq : j ≠ i := by
      rintro rfl
      exact habsent hpresent
    rw [hbefore j heq] at hj
    exact h.came j hj hpresent
  · rw [hmembers]
    show s.threads = (((insert i s.members).filter fun j => j ∈ s.present).card : Int)
    rw [Finset.filter_insert, if_neg habsent]
    exact h.threads

/-- One more member is present. -/
theorem arrive {i : ι} (h : Level s) (hi : s.running i = true) (hturn : s.came i = s.rounds.length) (skipped : Nat) :
    Level { s with
      came := Function.update s.came i (s.came i + 1 + skipped)
      opened := s.opened ++ [⟨i, s.came i⟩]
      threads := s.threads + 1 } := by
  have habsent := h.not_present hi hturn
  have hpresent : State.present { s with
      came := Function.update s.came i (s.came i + 1 + skipped)
      opened := s.opened ++ [⟨i, s.came i⟩]
      threads := s.threads + 1 } = s.present ++ [i] := by simp [State.present]
  obtain ⟨honce, hnumber⟩ := h.opened_append hi hturn
  refine ⟨h.rounds, honce, hnumber, fun j hj hmissing => ?_, fun j hj hcame => ?_, ?_⟩
  · rw [hpresent, List.mem_append, List.mem_singleton, not_or] at hmissing
    simp only [Function.update_of_ne hmissing.2]
    exact h.missing j hj hmissing.1
  · by_cases heq : j = i
    · subst heq
      simp only [Function.update_self]
      omega
    · rw [hpresent, List.mem_append, List.mem_singleton] at hcame
      simp only [Function.update_of_ne heq]
      exact h.came j hj (hcame.resolve_right heq)
  · have hfilter : s.members.filter (fun j => j ∈ s.present ++ [i]) =
        insert i (s.members.filter fun j => j ∈ s.present) := by
      ext j
      by_cases heq : j = i
      · subst heq
        simp [hi]
      · simp [heq]
    have hnot : i ∉ s.members.filter fun j => j ∈ s.present := by simp [habsent]
    have hcard := congrArg Finset.card hfilter
    rw [Finset.card_insert_of_notMem hnot] at hcard
    simp only [hpresent]
    show s.threads + 1 = ((s.members.filter fun j => j ∈ s.present ++ [i]).card : Int)
    rw [hcard, h.threads]
    push_cast
    rfl

/-- The last missing member makes the round whole. -/
theorem fire {i : ι} (h : Level s) (hcard : (s.members.card : Int) ≤ s.threads + 1) (hi : s.running i = true)
    (hturn : s.came i = s.rounds.length) (skipped : Nat) :
    Level { s with
      came := Function.update s.came i (s.came i + 1 + skipped)
      threads := 0
      opened := []
      rounds := s.rounds ++ [⟨s.opened ++ [⟨i, s.came i⟩], s.running⟩] } := by
  have habsent := h.not_present hi hturn
  have hall : ∀ j, s.running j = true → j = i ∨ j ∈ s.present := by
    have hsub : insert i (s.members.filter fun j => j ∈ s.present) ⊆ s.members := by
      intro j hj
      rcases Finset.mem_insert.mp hj with rfl | hj
      · exact State.mem_members.mpr hi
      · exact (Finset.mem_filter.mp hj).1
    have hnot : i ∉ s.members.filter fun j => j ∈ s.present := by simp [habsent]
    have heq : insert i (s.members.filter fun j => j ∈ s.present) = s.members := by
      apply Finset.eq_of_subset_of_card_le hsub
      rw [Finset.card_insert_of_notMem hnot]
      have hthreads := h.threads
      omega
    intro j hj
    have hmem : j ∈ insert i (s.members.filter fun j => j ∈ s.present) := by
      rw [heq]
      exact State.mem_members.mpr hj
    rcases Finset.mem_insert.mp hmem with hj | hj
    · exact .inl hj
    · exact .inr (Finset.mem_filter.mp hj).2
  have hpairs : (⟨s.opened ++ [⟨i, s.came i⟩], s.running⟩ : Round ι).Pairs s.rounds.length := by
    have hmap : (s.opened ++ [(⟨i, s.came i⟩ : Arrival ι)]).map Arrival.member = s.present ++ [i] := by
      simp [State.present]
    obtain ⟨honce, hnumber⟩ := h.opened_append hi hturn
    refine ⟨honce, hnumber, fun j hj => ?_⟩
    rw [hmap, List.mem_append, List.mem_singleton]
    exact (hall j hj).symm
  refine ⟨fun k hk => ?_, List.nodup_nil, nofun, fun j hj _ => ?_, fun j _ hj => absurd hj List.not_mem_nil, ?_⟩
  · simp only [List.length_append, List.length_singleton] at hk
    by_cases hlast : k < s.rounds.length
    · simp only [List.getElem_append_left hlast]
      exact h.rounds k hlast
    · obtain rfl : k = s.rounds.length := by omega
      simpa using hpairs
  · simp only [List.length_append, List.length_singleton]
    by_cases heq : j = i
    · subst heq
      simp only [Function.update_self]
      omega
    · simp only [Function.update_of_ne heq]
      exact h.came j hj ((hall j hj).resolve_left heq)
  · simp [State.present]

/-- A member that leaves in turn was missing in this round, and brings its part. -/
theorem leave {i : ι} (h : Level s) (hi : s.running i = true) (hturn : s.came i = s.rounds.length) :
    Level { s with
      gone := Function.update s.gone i true
      count := s.count - 1
      opened := s.opened ++ [⟨i, s.came i⟩] } := by
  have habsent := h.not_present hi hturn
  have hmembers : State.members { s with
      gone := Function.update s.gone i true
      count := s.count - 1
      opened := s.opened ++ [⟨i, s.came i⟩] } = s.members.erase i := members_leave rfl rfl
  have hpresent : State.present { s with
      gone := Function.update s.gone i true
      count := s.count - 1
      opened := s.opened ++ [⟨i, s.came i⟩] } = s.present ++ [i] := by simp [State.present]
  have hrunning : ∀ j, State.running { s with
      gone := Function.update s.gone i true
      count := s.count - 1
      opened := s.opened ++ [⟨i, s.came i⟩] } j = true → j ≠ i ∧ s.running j = true := by
    intro j hj
    have hne : j ≠ i := by
      rintro rfl
      simp [State.running] at hj
    exact ⟨hne, by simpa [State.running, hne] using hj⟩
  obtain ⟨honce, hnumber⟩ := h.opened_append hi hturn
  refine ⟨h.rounds, honce, hnumber, fun j hj hmissing => ?_, fun j hj hcame => ?_, ?_⟩
  · rw [hpresent, List.mem_append, not_or] at hmissing
    exact h.missing j (hrunning j hj).2 hmissing.1
  · rw [hpresent, List.mem_append, List.mem_singleton] at hcame
    exact h.came j (hrunning j hj).2 (hcame.resolve_right (hrunning j hj).1)
  · have hfilter : (s.members.erase i).filter (fun j => j ∈ s.present ++ [i]) =
        s.members.filter fun j => j ∈ s.present := by
      ext j
      by_cases heq : j = i
      · subst heq
        simp [habsent]
      · simp [heq]
    rw [hmembers]
    simp only [hpresent]
    rw [hfilter]
    exact h.threads

theorem next {e : Event ι} (h : Level s) (hcounted : Counted s) (hsize : Fits ι size) (hturn : InTurn s e)
    (hstep : step size s e = some s') : Level s' := by
  obtain ⟨i, rfl, hi, rfl⟩ | ⟨i, may, skipped, rfl, hi, hfires, rfl⟩ | ⟨i, may, skipped, rfl, hi, -, rfl⟩ |
    ⟨i, rfl, hi, rfl⟩ := step_cases hstep
  · exact h.join hcounted hi hturn
  · refine h.fire ?_ hi hturn skipped
    rw [hfires.1]
    exact hcounted.card_le hsize
  · exact h.arrive hi hturn skipped
  · exact h.leave hi hturn

end Level

/-- In a run in turn every round has every member once, with the number of the round. -/
theorem pairs_of_reachable (hsize : Fits ι size) (h : Reachable (step size) InTurn .empty s) :
    ∀ k (hk : k < s.rounds.length), (s.rounds[k]).Pairs k := by
  have hboth : Counted s ∧ Level s := by
    apply h.invariant
    · exact ⟨.empty, .empty⟩
    · exact fun _ _ _ ⟨hcounted, hlevel⟩ hturn hstep =>
        ⟨hcounted.next hstep, hlevel.next hcounted hsize hturn hstep⟩
  exact hboth.2.rounds

/-! ## Out of turn -/

/-- Round `n`, when it comes, is not whole: a wrong number is in it, or a member that runs and is missing has a wrong
number. -/
def Spoiled (n : Nat) (s : State ι) : Prop :=
  (s.rounds.length = n ∧
    ((∃ a ∈ s.opened, a.number ≠ n) ∨ ∃ i, s.running i = true ∧ i ∉ s.present ∧ s.came i ≠ n)) ∨
  ∃ hn : n < s.rounds.length, ¬ (s.rounds[n]).Pairs n

omit [Fintype ι] in
/-- An event out of turn spoils the open round. -/
theorem spoiled_of_not_inTurn {e : Event ι} (hturn : ¬ InTurn s e) (hopened : ∀ a ∈ s.opened, s.joined a.member = true)
    (hcame : ∀ i, s.joined i = false → s.gone i = false) (hstep : step size s e = some s') :
    Spoiled s.rounds.length s' := by
  obtain ⟨i, rfl, hi, rfl⟩ | ⟨i, may, skipped, rfl, hi, -, rfl⟩ | ⟨i, may, skipped, rfl, hi, -, rfl⟩ |
    ⟨i, rfl, hi, rfl⟩ := step_cases hstep
  · refine .inl ⟨rfl, .inr ⟨i, ?_, fun hpresent => ?_, hturn⟩⟩
    · simp [State.running, hcame i hi]
    · obtain ⟨a, ha, rfl⟩ := mem_present.mp hpresent
      have hjoined := hopened a ha
      rw [hi] at hjoined
      cases hjoined
  · refine .inr ⟨by simp, fun hpairs => hturn ?_⟩
    simp only [List.getElem_concat_length] at hpairs
    exact hpairs.number _ (List.mem_append_right _ (List.mem_singleton_self _))
  · exact .inl ⟨rfl, .inl ⟨_, List.mem_append_right _ (List.mem_singleton_self _), hturn⟩⟩
  · exact .inl ⟨rfl, .inl ⟨_, List.mem_append_right _ (List.mem_singleton_self _), hturn⟩⟩

omit [Fintype ι] in
/-- It stays spoiled until it is over, and after that. -/
theorem Spoiled.next {n : Nat} {e : Event ι} (h : Spoiled n s) (hstep : step size s e = some s') : Spoiled n s' := by
  rcases h with ⟨hlength, ⟨a, ha, hnumber⟩ | ⟨i, hi, hmissing, hcame⟩⟩ | ⟨hn, hpairs⟩
  · obtain ⟨j, rfl, hj, rfl⟩ | ⟨j, may, skipped, rfl, hj, -, rfl⟩ | ⟨j, may, skipped, rfl, hj, -, rfl⟩ |
      ⟨j, rfl, hj, rfl⟩ := step_cases hstep
    · exact .inl ⟨hlength, .inl ⟨a, ha, hnumber⟩⟩
    · subst hlength
      refine .inr ⟨by simp, fun hpairs => hnumber ?_⟩
      simp only [List.getElem_concat_length] at hpairs
      exact hpairs.number a (List.mem_append_left _ ha)
    · exact .inl ⟨hlength, .inl ⟨a, List.mem_append_left _ ha, hnumber⟩⟩
    · exact .inl ⟨hlength, .inl ⟨a, List.mem_append_left _ ha, hnumber⟩⟩
  · obtain ⟨j, rfl, hj, rfl⟩ | ⟨j, may, skipped, rfl, hj, -, rfl⟩ | ⟨j, may, skipped, rfl, hj, -, rfl⟩ |
      ⟨j, rfl, hj, rfl⟩ := step_cases hstep
    · refine .inl ⟨hlength, .inr ⟨i, ?_, hmissing, hcame⟩⟩
      have hne : i ≠ j := by
        rintro rfl
        rw [State.running, hj] at hi
        cases hi
      simpa [State.running, hne] using hi
    · subst hlength
      refine .inr ⟨by simp, fun hpairs => ?_⟩
      simp only [List.getElem_concat_length] at hpairs
      have hall := hpairs.all i hi
      rw [List.map_append, List.mem_append] at hall
      rcases hall with hall | hall
      · exact hmissing hall
      · obtain rfl : i = j := by simpa using hall
        exact hcame (hpairs.number _ (List.mem_append_right _ (List.mem_singleton_self _)))
    · by_cases heq : i = j
      · subst heq
        exact .inl ⟨hlength, .inl ⟨_, List.mem_append_right _ (List.mem_singleton_self _), hcame⟩⟩
      · refine .inl ⟨hlength, .inr ⟨i, hi, ?_, ?_⟩⟩
        · simpa [State.present, heq] using hmissing
        · simpa [heq] using hcame
    · by_cases heq : i = j
      · subst heq
        exact .inl ⟨hlength, .inl ⟨_, List.mem_append_right _ (List.mem_singleton_self _), hcame⟩⟩
      · refine .inl ⟨hlength, .inr ⟨i, ?_, ?_, hcame⟩⟩
        · simpa [State.running, heq] using hi
        · simpa [State.present, heq] using hmissing
  · obtain ⟨j, rfl, hj, rfl⟩ | ⟨j, may, skipped, rfl, hj, -, rfl⟩ | ⟨j, may, skipped, rfl, hj, -, rfl⟩ |
      ⟨j, rfl, hj, rfl⟩ := step_cases hstep
    · exact .inr ⟨hn, hpairs⟩
    · refine .inr ⟨by simp only [List.length_append, List.length_singleton]; omega, ?_⟩
      simp only [List.getElem_append_left hn]
      exact hpairs
    · exact .inr ⟨hn, hpairs⟩
    · exact .inr ⟨hn, hpairs⟩

/-- **Out of turn.** After an event out of turn the open round does not have every member once with its number,
whatever comes until it is over. -/
theorem not_pairs {e : Event ι} {s'' : State ι} {G' : State ι → Event ι → Prop} (hcounted : Counted s)
    (hturn : ¬ InTurn s e) (hstep : step size s e = some s') (h : Reachable (step size) G' s' s'')
    (hn : s.rounds.length < s''.rounds.length) : ¬ (s''.rounds[s.rounds.length]).Pairs s.rounds.length := by
  have hspoiled : Spoiled s.rounds.length s'' :=
    h.invariant (spoiled_of_not_inTurn hturn hcounted.opened hcounted.gone hstep) fun _ _ _ hs _ hstep => hs.next hstep
  rcases hspoiled with ⟨hlength, -⟩ | ⟨_, hpairs⟩
  · omega
  · exact hpairs

end

end Trigger
