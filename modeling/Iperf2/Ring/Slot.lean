import Iperf2.Ring.Fifo

/-!
# The slot of the packet that the reporter reads

`packetring_dequeue` stores the consumer index before it returns a pointer into the ring, and
`reporter_process_transfer_report` reads the packet through that pointer until its next dequeue. Only the full test
keeps the producer out of the slot.

* `Holds` : the slot that is held is the one of the consumer index, and has the packet that was returned;
* `slot_stability` : no enqueue writes there, while the full test sees a full ring.
-/

namespace Iperf2.Ring
open Transition

variable {α : Type}

/-- The slot whose pointer the last dequeue returned still has the packet that it returned, and no enqueue is about to
write there. -/
def Threads.SlotStable (s : Threads α) : Prop :=
  ∀ r, s.held = some r → s.returned.getLast? = some (s.ring.data r) ∧ ∀ p, s.producerPc ≠ .copy p r

/-- The slot of the returned packet is the one of the consumer index. -/
structure Holds (s : Threads α) : Prop where
  idle : ∀ r, s.held = some r → s.consumerPc = .idle
  consumer : ∀ r, s.held = some r → r = s.ring.consumer
  last : ∀ r, s.held = some r → s.returned.getLast? = some (s.ring.data r)

/-- Nothing is held. -/
theorem Holds.of_none {s : Threads α} (h : s.held = none) : Holds s := by
  refine ⟨?_, ?_, ?_⟩ <;> intro r hr <;> rw [h] at hr <;> cases hr

/-- A producer that copies is past the consumer index. -/
theorem Refines.copy_ne {s : Threads α} {c : Channel α} (h : Refines s c) {p : α} {w : Nat}
    (hpc : s.producerPc = .copy p w) : w ≠ s.ring.consumer := by
  have hat := h.producerAt
  rw [hpc] at hat
  obtain ⟨hroom, hw⟩ := hat
  intro heq
  have hslot : (s.ring.consumer + (c.pending.length + 1)) % s.ring.maxcount =
      (s.ring.consumer + 0) % s.ring.maxcount := by
    rw [← hw, heq, Nat.add_zero, Nat.mod_eq_of_lt h.consumer_lt]
  have := Circular.slot_inj hroom (Nat.zero_lt_of_lt hroom) hslot
  omega

/-- What the producer writes is not the packet that is held. -/
theorem Holds.write {s : Threads α} {c : Channel α} (h : Holds s) (hR : Refines s c) {p : α} {w : Nat}
    (hpc : s.producerPc = .copy p w) (x : α) : Holds { s with ring := s.ring.write w x } := by
  refine ⟨h.idle, h.consumer, fun r hr => ?_⟩
  have hne : r ≠ w := by
    rw [h.consumer r hr]
    exact (hR.copy_ne hpc).symm
  have hdata : (s.ring.write w x).data r = s.ring.data r := Function.update_of_ne hne _ _
  exact (h.last r hr).trans (congrArg some hdata.symm)

theorem Holds.next {s s' : Threads α} {c : Channel α} {a : Label α} (h : Holds s) (hR : Refines s c)
    (hstep : step s a = some s') : Holds s' := by
  cases a with
  | enqueue p =>
    simp only [step] at hstep
    split at hstep <;> cases hstep
    exact ⟨h.idle, h.consumer, h.last⟩
  | testAtEnd =>
    obtain ⟨n, hn⟩ := await_eq s.ring
    simp only [step, hn] at hstep
    split at hstep
    · split at hstep <;> cases hstep
      · exact ⟨h.idle, h.consumer, h.last⟩
      · exact ⟨h.idle, h.consumer, h.last⟩
    · cases hstep
  | testBehind =>
    obtain ⟨n, hn⟩ := await_eq s.ring
    simp only [step, hn] at hstep
    split at hstep
    · split at hstep <;> cases hstep
      · exact ⟨h.idle, h.consumer, h.last⟩
      · exact ⟨h.idle, h.consumer, h.last⟩
    · cases hstep
  | awake =>
    simp only [step] at hstep
    split at hstep <;> cases hstep
    exact ⟨h.idle, h.consumer, h.last⟩
  | tear x =>
    simp only [step] at hstep
    split at hstep <;> cases hstep
    rename_i p w hpc
    exact h.write hR hpc x
  | memcpy =>
    simp only [step] at hstep
    split at hstep <;> cases hstep
    rename_i p w hpc
    obtain ⟨hidle, hconsumer, hlast⟩ := h.write hR hpc p
    exact ⟨hidle, hconsumer, hlast⟩
  | store =>
    simp only [step] at hstep
    split at hstep <;> cases hstep
    exact ⟨h.idle, h.consumer, h.last⟩
  | dequeue =>
    simp only [step] at hstep
    split at hstep
    · split at hstep <;> cases hstep
      · exact .of_none rfl
      · exact .of_none rfl
    · cases hstep
  | advance =>
    simp only [step] at hstep
    split at hstep <;> cases hstep
    refine ⟨fun _ _ => rfl, fun r hr => ?_, fun r hr => ?_⟩
    · exact (Option.some.inj hr).symm
    · rw [← Option.some.inj hr, List.getLast?_concat]

theorem holds_of_reachable [Inhabited α] {count : Nat} (hcount : 2 ≤ count) (awakeProducer : Bool)
    {s : Threads α} (h : Reachable step LetThrough (.init count awakeProducer) s) :
    Holds s ∧ ∃ c, Refines s c := by
  apply h.invariant
  · exact ⟨.of_none rfl, _, .init hcount awakeProducer⟩
  · rintro s a s' ⟨hholds, c, hR⟩ guard hstep
    refine ⟨hholds.next hR hstep, ?_⟩
    rcases step_simulates s c a s' hR guard hstep with hR' | ⟨-, c', -, hR'⟩
    · exact ⟨c, hR'⟩
    · exact ⟨c', hR'⟩

theorem Holds.slotStable {s : Threads α} {c : Channel α} (h : Holds s) (hR : Refines s c) : s.SlotStable := by
  refine fun r hr => ⟨h.last r hr, fun p hpc => ?_⟩
  exact hR.copy_ne hpc (h.consumer r hr)

/-- A test that lets the producer through at a full ring sends it to the slot that is held. -/
theorem Holds.not_slotStable {s s' : Threads α} {a : Label α} (h : Holds s) (hheld : s.held ≠ none)
    (hstep : step s a = some s') (hguard : ¬ LetThrough s a) : ¬ s'.SlotStable := by
  obtain ⟨r, hr⟩ := Option.ne_none_iff_exists'.mp hheld
  cases a with
  | testBehind =>
    obtain ⟨hproducer, hconsumer⟩ := not_not.mp hguard
    have hbehind : s.ring.fullBehind = false := by
      rw [PacketRing.fullBehind, hconsumer]
      rfl
    have hwrite : s.ring.writeindex = r := by
      rw [PacketRing.writeindex, Circular.wrap, if_pos hproducer, h.consumer r hr, hconsumer]
    simp only [step, hbehind, hwrite] at hstep
    split at hstep <;> cases hstep
    exact fun hstable => (hstable r hr).2 _ rfl
  | enqueue | testAtEnd | awake | tear | memcpy | store | dequeue | advance => exact absurd trivial hguard

/-- **The packet that a dequeue returned stays in its slot until the next one**, for every capacity and interleaving,
as long as no full test is finished at a full ring whose consumer index is 0; and one that is, while a packet is held,
sends the producer to its slot. -/
theorem slot_stability [Inhabited α] {count : Nat} (hcount : 2 ≤ count) (awakeProducer : Bool) {s : Threads α}
    (h : Reachable step LetThrough (.init count awakeProducer) s) :
    s.SlotStable ∧ ∀ a s', step s a = some s' → s.held ≠ none → (s'.SlotStable ↔ LetThrough s a) := by
  obtain ⟨hholds, c, hR⟩ := holds_of_reachable hcount awakeProducer h
  refine ⟨hholds.slotStable hR, fun a s' hstep hheld => ⟨fun hstable => ?_, fun hguard => ?_⟩⟩
  · by_contra hguard
    exact hholds.not_slotStable hheld hstep hguard hstable
  · obtain ⟨hholds', c', hR'⟩ := holds_of_reachable hcount awakeProducer (h.next a hguard hstep)
    exact hholds'.slotStable hR'

/-- A capacity of three: the reporter reads the first packet while the second one is enqueued. -/
theorem slot_stability_three : 2 ≤ 3 ∧ ∃ s : Threads Nat, s.held = some 1 ∧ s.enqueued = [7, 8] ∧ s.SlotStable := by
  have hrun : ∃ s : Threads Nat, run step LetThrough (.init 3 true)
      [.enqueue 7, .testAtEnd, .testBehind, .memcpy, .store, .dequeue, .advance, .enqueue 8, .testAtEnd, .testBehind,
        .tear 0, .memcpy, .store] = some s ∧ s.held = some 1 ∧ s.enqueued = [7, 8] :=
    ⟨_, rfl, rfl, rfl⟩
  obtain ⟨s, hs, hheld, henq⟩ := hrun
  exact ⟨by decide, s, hheld, henq, (slot_stability (by decide) true (.of_run _ _ .start hs)).1⟩

/-- A capacity of two: the reporter holds slot 0 when the producer, one slot from the end, goes on to it. -/
theorem slot_not_stable : ¬ ∀ count, 2 ≤ count → ∀ s : Threads Nat,
    Reachable step Any (.init count true) s → s.SlotStable := by
  intro h
  have hrun : ∃ s : Threads Nat, run step Any (.init 2 true)
      [.enqueue 7, .testAtEnd, .testBehind, .memcpy, .store, .dequeue, .advance,
        .enqueue 8, .testAtEnd, .testBehind, .memcpy, .store, .dequeue, .advance,
        .enqueue 9, .testAtEnd, .testBehind, .memcpy, .store,
        .enqueue 10, .testAtEnd, .testBehind, .memcpy] = some s ∧ s.held = some 0 ∧ s.returned = [7, 8] ∧
          s.ring.data 0 = 10 :=
    ⟨_, rfl, rfl, rfl, rfl⟩
  obtain ⟨s, hs, hheld, hret, hdata⟩ := hrun
  have hlast := (h 2 (by decide) s (.of_run _ _ .start hs) 0 hheld).1
  rw [hret, hdata] at hlast
  cases hlast

end Iperf2.Ring
