import Iperf2.Ring.Model

/-!
# The packet ring is a first-in first-out channel, while its full test sees a full ring

The two threads refine `Channel`: publishing the producer index is a `push`, storing the consumer index a `pop`.
The relation `Refines` ties the indices, the slots and the number of unread packets together: the producer index
is as many slots after the consumer index as there are unread packets, and these slots hold them in order.

Every test that lets the producer through must leave one slot free. The second half of the full test sees a full
ring when the consumer index is positive; at consumer index 0 the first half would have to see it, and compares
with `maxcount`, which no index reaches. `LetThrough` is the guard that this case does not come up.
-/

namespace Iperf2.Ring
open Transition

variable {α : Type}

/-- The full test is not finished with the producer index at the last slot and the consumer index at slot 0,
a full ring that neither half of the test sees. -/
def LetThrough (s : Threads α) : Label α → Prop
  | .testBehind => ¬ (s.ring.producer + 1 = s.ring.maxcount ∧ s.ring.consumer = 0)
  | _ => True

instance (s : Threads α) (a : Label α) : Decidable (LetThrough s a) := by
  unfold LetThrough
  split <;> infer_instance

/-- What the producer knows at its place, with `n` packets unread. -/
def ProducerAt (pr : PacketRing α) (n : Nat) : ProducerPc α → Prop
  | .copy _ w => n + 1 < pr.maxcount ∧ w = (pr.consumer + (n + 1)) % pr.maxcount
  | .store p w => n + 1 < pr.maxcount ∧ w = (pr.consumer + (n + 1)) % pr.maxcount ∧ pr.data w = p
  | _ => True

/-- What the consumer knows at its place, with `n` packets unread. -/
def ConsumerAt (pr : PacketRing α) (n : Nat) : ConsumerPc → Prop
  | .idle => True
  | .advance r => 0 < n ∧ r = (pr.consumer + 1) % pr.maxcount

/-- The ring and its threads stand for the channel. -/
structure Refines (s : Threads α) (c : Channel α) : Prop where
  sent : s.enqueued = c.sent
  got : s.returned = c.got
  consumer_lt : s.ring.consumer < s.ring.maxcount
  room : c.pending.length < s.ring.maxcount
  producer : s.ring.producer = (s.ring.consumer + c.pending.length) % s.ring.maxcount
  slots : Circular.window s.ring.data s.ring.maxcount s.ring.consumer c.pending.length = c.pending
  producerAt : ProducerAt s.ring c.pending.length s.producerPc
  consumerAt : ConsumerAt s.ring c.pending.length s.consumerPc

theorem Refines.init [Inhabited α] {count : Nat} (hcount : 2 ≤ count) (awakeProducer : Bool) :
    Refines (Threads.init count awakeProducer : Threads α) .empty where
  sent := rfl
  got := rfl
  consumer_lt := by simp only [Threads.init, packetringInit]; omega
  room := by simp only [Threads.init, packetringInit, Channel.empty, List.length_nil]; omega
  producer := by simp [Threads.init, packetringInit, Channel.empty]
  slots := rfl
  producerAt := trivial
  consumerAt := trivial

section
variable {s : Threads α} {c : Channel α}

theorem Refines.producer_lt (h : Refines s c) : s.ring.producer < s.ring.maxcount := by
  rw [h.producer]
  exact Nat.mod_lt _ (Nat.zero_lt_of_lt h.consumer_lt)

/-- Equal indices mean that nothing is unread. -/
theorem Refines.pending_nil (h : Refines s c) (heq : s.ring.producer = s.ring.consumer) :
    c.pending = [] := by
  have hslot : (s.ring.consumer + c.pending.length) % s.ring.maxcount =
      (s.ring.consumer + 0) % s.ring.maxcount := by
    rw [← h.producer, heq, Nat.add_zero, Nat.mod_eq_of_lt h.consumer_lt]
  exact List.eq_nil_of_length_eq_zero
    (Circular.slot_inj h.room (Nat.zero_lt_of_lt h.consumer_lt) hslot)

/-- A full test that lets the producer through leaves a slot free after the copy. -/
theorem Refines.room_of_letThrough (h : Refines s c)
    (hguard : ¬ (s.ring.producer + 1 = s.ring.maxcount ∧ s.ring.consumer = 0))
    (htest : s.ring.fullBehind = false) : c.pending.length + 1 < s.ring.maxcount := by
  have hroom := h.room
  have hlt := h.consumer_lt
  by_contra hfull
  -- a window of all slots but one ends right behind the consumer index
  have hlen : s.ring.consumer + c.pending.length + 1 = s.ring.consumer + s.ring.maxcount := by omega
  have hprod := h.producer
  simp only [PacketRing.fullBehind, beq_eq_false_iff_ne] at htest
  rcases Nat.eq_zero_or_pos s.ring.consumer with h0 | hpos
  · rw [h0, Nat.zero_add, Nat.mod_eq_of_lt hroom] at hprod
    exact hguard ⟨by omega, h0⟩
  · rw [show s.ring.consumer + c.pending.length = s.ring.consumer - 1 + s.ring.maxcount by omega,
      Nat.add_mod_right, Nat.mod_eq_of_lt (by omega)] at hprod
    omega

theorem Refines.writeindex_eq (h : Refines s c) :
    s.ring.writeindex = (s.ring.consumer + (c.pending.length + 1)) % s.ring.maxcount := by
  rw [PacketRing.writeindex, Circular.wrap_succ h.producer_lt, h.producer, Nat.mod_add_mod, Nat.add_assoc]

/-- The producer goes on to a place where it knows what it has to. -/
theorem Refines.setProducerPc (h : Refines s c) {pc : ProducerPc α} (hat : ProducerAt s.ring c.pending.length pc) :
    Refines { s with producerPc := pc } c :=
  ⟨h.sent, h.got, h.consumer_lt, h.room, h.producer, h.slots, hat, h.consumerAt⟩

/-- The consumer goes on to a place where it knows what it has to, and the pointer it returned is given up. -/
theorem Refines.setConsumerPc (h : Refines s c) {pc : ConsumerPc} (hat : ConsumerAt s.ring c.pending.length pc) :
    Refines { s with consumerPc := pc, held := none } c :=
  ⟨h.sent, h.got, h.consumer_lt, h.room, h.producer, h.slots, h.producerAt, hat⟩

/-- What the producer writes into its slot is not seen by the channel. -/
theorem Refines.write {p : α} {w : Nat} (h : Refines s c) (hpc : s.producerPc = .copy p w) (x : α) :
    Refines { s with ring := s.ring.write w x } c := by
  have hat := h.producerAt
  rw [hpc] at hat
  obtain ⟨hroom, hw⟩ := hat
  have hslots : Circular.window (s.ring.write w x).data s.ring.maxcount s.ring.consumer c.pending.length =
      c.pending := by
    rw [hw]
    exact (Circular.window_update s.ring.data x h.room hroom (Or.inr (by omega))).trans h.slots
  have hproducer : ProducerAt (s.ring.write w x) c.pending.length s.producerPc := by
    rw [hpc]
    exact ⟨hroom, hw⟩
  exact ⟨h.sent, h.got, h.consumer_lt, h.room, h.producer, hslots, hproducer, h.consumerAt⟩

/-- Storing the producer index pushes the copied packet. -/
theorem Refines.store {p : α} {w : Nat} (h : Refines s c) (hpc : s.producerPc = .store p w) :
    Refines { s with
      ring := { s.ring with producer := w }
      producerPc := .idle
      enqueued := s.enqueued ++ [p] } (c.push p) := by
  have hat := h.producerAt
  rw [hpc] at hat
  obtain ⟨hroom, hw, hdata⟩ := hat
  have hlen : (c.push p).pending.length = c.pending.length + 1 := by simp [Channel.push]
  refine ⟨?_, h.got, h.consumer_lt, ?_, ?_, ?_, trivial, ?_⟩
  · simp only [Channel.push, h.sent]
  · rw [hlen]
    exact hroom
  · rw [hlen]
    exact hw
  · rw [hlen]
    simp only [Channel.push]
    rw [Circular.window_succ, h.slots, ← hw, hdata]
  · have hcons := h.consumerAt
    rw [hlen]
    cases hc : s.consumerPc with
    | idle => trivial
    | advance r =>
      rw [hc] at hcons
      exact ⟨Nat.succ_pos _, hcons.2⟩

/-- Storing the consumer index pops the oldest unread packet. -/
theorem Refines.advance {r : Nat} (h : Refines s c) (hpc : s.consumerPc = .advance r) :
    ∃ c', c.pop = some c' ∧
      Refines { s with
        ring := { s.ring with consumer := r }
        consumerPc := .idle
        returned := s.returned ++ [s.ring.data r]
        held := some r } c' := by
  have hat := h.consumerAt
  rw [hpc] at hat
  obtain ⟨hpos, hr⟩ := hat
  obtain ⟨x, rest, hpending⟩ := List.exists_cons_of_length_pos hpos
  obtain ⟨c', hpop, hsent, hrest, hgot⟩ := c.pop_of_pending hpending
  have hlen : c.pending.length = rest.length + 1 := by rw [hpending, List.length_cons]
  have hslots := h.slots
  rw [hlen, Circular.window_pop, ← hr, hpending] at hslots
  obtain ⟨hx, hwindow⟩ := List.cons.inj hslots
  have hm := Nat.zero_lt_of_lt h.consumer_lt
  have hroom := h.room
  -- counted from the next slot there is one packet less up to any later slot
  have hshift : ∀ k, (s.ring.consumer + (k + 1)) % s.ring.maxcount = (r + k) % s.ring.maxcount := by
    intro k
    rw [hr, Nat.mod_add_mod]
    congr 1
    omega
  refine ⟨c', hpop, ?_, ?_, ?_, ?_, ?_, ?_, ?_, trivial⟩
  · rw [hsent]
    exact h.sent
  · rw [hgot, ← hx, ← h.got]
  · simp only [hr]
    exact Nat.mod_lt _ hm
  · simp only [hrest]
    omega
  · simp only [hrest]
    rw [h.producer, hlen, hshift]
  · simp only [hrest]
    exact hwindow
  · have hprod := h.producerAt
    simp only [hrest]
    rw [hlen] at hprod
    cases hp : s.producerPc with
    | copy p w =>
      rw [hp] at hprod
      exact ⟨by simp only; omega, hprod.2.trans (hshift _)⟩
    | store p w =>
      rw [hp] at hprod
      exact ⟨by simp only; omega, hprod.2.1.trans (hshift _), hprod.2.2⟩
    | idle | testAtEnd | testBehind | await => trivial

end

/-- A wait only counts; the indices and the slots stay. -/
theorem await_eq (pr : PacketRing α) : ∃ n, pr.await = { pr with awaitcounter := n } := by
  unfold PacketRing.await
  split
  · exact ⟨_, rfl⟩
  · exact ⟨pr.awaitcounter, rfl⟩

theorem Refines.await {s : Threads α} {c : Channel α} (h : Refines s c) (p : α) :
    Refines { s with ring := s.ring.await, producerPc := .await p } c := by
  obtain ⟨n, hn⟩ := await_eq s.ring
  rw [hn]
  exact ⟨h.sent, h.got, h.consumer_lt, h.room, h.producer, h.slots, trivial, h.consumerAt⟩

/-- Different indices mean that a packet is unread. -/
theorem Refines.pending_pos {s : Threads α} {c : Channel α} (h : Refines s c)
    (hne : s.ring.producer ≠ s.ring.consumer) : 0 < c.pending.length := by
  apply Nat.pos_of_ne_zero
  intro h0
  apply hne
  rw [h.producer, h0, Nat.add_zero, Nat.mod_eq_of_lt h.consumer_lt]

/-- **The threads refine the channel**, step by step, while the guard holds. -/
theorem step_simulates : Simulates (step (α := α)) LetThrough Channel.step Refines := by
  intro s c a s' h guard hstep
  cases a with
  | enqueue p =>
    simp only [step] at hstep
    split at hstep <;> cases hstep
    exact .inl (h.setProducerPc trivial)
  | testAtEnd =>
    simp only [step] at hstep
    split at hstep
    · split at hstep <;> cases hstep
      · exact .inl (h.await _)
      · exact .inl (h.setProducerPc trivial)
    · cases hstep
  | testBehind =>
    simp only [step] at hstep
    split at hstep
    · split at hstep <;> cases hstep
      · exact .inl (h.await _)
      · rename_i htest
        have hroom := h.room_of_letThrough guard (Bool.eq_false_iff.mpr htest)
        exact .inl (h.setProducerPc ⟨hroom, h.writeindex_eq⟩)
    · cases hstep
  | awake =>
    simp only [step] at hstep
    split at hstep <;> cases hstep
    exact .inl (h.setProducerPc trivial)
  | tear x =>
    simp only [step] at hstep
    split at hstep <;> cases hstep
    rename_i p w hpc
    exact .inl (h.write hpc x)
  | memcpy =>
    simp only [step] at hstep
    split at hstep <;> cases hstep
    rename_i p w hpc
    have hat := h.producerAt
    rw [hpc] at hat
    exact .inl ((h.write hpc p).setProducerPc ⟨hat.1, hat.2, Function.update_self _ _ _⟩)
  | store =>
    simp only [step] at hstep
    split at hstep <;> cases hstep
    rename_i p w hpc
    exact .inr ⟨.push p, c.push p, rfl, h.store hpc⟩
  | dequeue =>
    simp only [step] at hstep
    split at hstep
    · split at hstep <;> cases hstep
      · exact .inl (h.setConsumerPc h.consumerAt)
      · rename_i hne
        exact .inl (h.setConsumerPc ⟨h.pending_pos hne, Circular.wrap_succ h.consumer_lt⟩)
    · cases hstep
  | advance =>
    simp only [step] at hstep
    split at hstep <;> cases hstep
    rename_i r hpc
    obtain ⟨c', hpop, hR⟩ := h.advance hpc
    exact .inr ⟨.pop, c', hpop, hR⟩

/-- A ring that stands for a channel delivers in order. -/
theorem Refines.fifo {s : Threads α} {c : Channel α} (h : Refines s c) : s.Fifo := by
  refine ⟨?_, fun hnull => ?_⟩
  · rw [h.got, h.sent]
    exact c.got_isPrefix
  · rw [h.got, h.sent]
    exact c.got_eq_sent (h.pending_nil hnull.2)

/-- **Every run delivers in order**, for every capacity and interleaving, as long as no full test is finished at
a full ring whose consumer index is 0. -/
theorem packetring_fifo [Inhabited α] {count : Nat} (hcount : 2 ≤ count) (awakeProducer : Bool)
    {s : Threads α} (h : Reachable step LetThrough (.init count awakeProducer) s) : s.Fifo := by
  obtain ⟨c, -, hR⟩ := step_simulates.reachable _ _ _ (Refines.init hcount awakeProducer) h
  exact hR.fifo

/-- A capacity of three, one packet through and a second one waiting: the first came out. -/
theorem packetring_fifo_three : 2 ≤ 3 ∧
    ∃ s : Threads Nat, s.enqueued = [7, 8] ∧ s.returned = [7] ∧ s.Fifo := by
  have hrun : ∃ s : Threads Nat, run step LetThrough (.init 3 true)
      [.enqueue 7, .testAtEnd, .testBehind, .tear 0, .memcpy, .store, .dequeue, .enqueue 8, .testAtEnd,
        .advance, .testBehind, .memcpy, .store] = some s ∧ s.enqueued = [7, 8] ∧ s.returned = [7] :=
    ⟨_, rfl, rfl, rfl⟩
  obtain ⟨s, hs, henq, hret⟩ := hrun
  exact ⟨by decide, s, henq, hret, packetring_fifo (by decide) true (.of_run _ _ .start hs)⟩

/-- A capacity of two: the second enqueue goes through with nothing dequeued, and the ring looks empty. -/
theorem packetring_not_fifo : ¬ ∀ count, 2 ≤ count → ∀ s : Threads Nat,
    Reachable step Any (.init count true) s → s.Fifo := by
  intro h
  have hrun : ∃ s : Threads Nat, run step Any (.init 2 true)
      [.enqueue 7, .testAtEnd, .testBehind, .memcpy, .store, .enqueue 8, .testAtEnd, .testBehind, .memcpy,
        .store] = some s ∧ s.enqueued = [7, 8] ∧ s.returned = [] ∧ s.DequeuesNull :=
    ⟨_, rfl, rfl, rfl, rfl, rfl⟩
  obtain ⟨s, hs, henq, hret, hnull⟩ := hrun
  have hall := (h 2 (by decide) s (.of_run _ _ .start hs)).2 hnull
  rw [henq, hret] at hall
  cases hall

/-! ## The missed case at every capacity -/

/-- With nothing dequeued the producer gets as far as the capacity lets it. -/
theorem fill [Inhabited α] {count : Nat} (awakeProducer : Bool) (k : Nat) (hk : k ≤ count) :
    ∃ s : Threads α, Reachable step Any (.init count awakeProducer) s ∧ s.producerPc = .idle ∧
      s.consumerPc = .idle ∧ s.ring.maxcount = count ∧ s.ring.producer = k % count ∧ s.ring.consumer = 0 ∧
      s.enqueued.length = k ∧ s.returned = [] := by
  induction k with
  | zero => exact ⟨_, .start, rfl, rfl, rfl, (Nat.zero_mod _).symm, rfl, rfl, rfl⟩
  | succ k ih =>
    obtain ⟨s, hreach, hp, hc, hmax, hprod, hcons, hlen, hret⟩ := ih (by omega)
    rw [Nat.mod_eq_of_lt (by omega)] at hprod
    have hfull : s.ring.full = false := by
      simp only [PacketRing.full, PacketRing.fullAtEnd, PacketRing.fullBehind, hprod, hmax, hcons,
        Bool.or_eq_false_iff, Bool.and_eq_false_iff, beq_eq_false_iff_ne]
      omega
    have henq : packetringEnqueue s.ring default =
        some { s.ring.write s.ring.writeindex default with producer := s.ring.writeindex } := by
      rw [packetringEnqueue, hfull]
      rfl
    refine ⟨_, hreach.of_run _ _ (enqueue_alone s default hp _ henq), hp, hc, hmax, ?_, hcons, ?_, hret⟩
    · simp only [PacketRing.writeindex]
      rw [Circular.wrap_succ (by omega), hprod, hmax]
    · rw [List.length_append, hlen, List.length_singleton]

/-- **At every capacity** that many enqueues in a row all go through, and then a dequeue returns NULL. -/
theorem packetring_overrun [Inhabited α] (count : Nat) (awakeProducer : Bool) :
    ∃ s : Threads α, Reachable step Any (.init count awakeProducer) s ∧ s.enqueued.length = count ∧
      s.returned = [] ∧ s.DequeuesNull := by
  obtain ⟨s, hreach, -, hc, -, hprod, hcons, hlen, hret⟩ := @fill α _ count awakeProducer count le_rfl
  exact ⟨s, hreach, hlen, hret, hc, by rw [hprod, hcons, Nat.mod_self]⟩

end Iperf2.Ring
