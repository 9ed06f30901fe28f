import Iperf2.Lib.Circular
import Iperf2.Lib.Channel

/-!
# The packet ring between a traffic thread and the reporter

`packet_ring.c`: one thread enqueues, one dequeues, and the only shared words are the two indices, each stored by
one side. `packetringEnqueue` and `packetringDequeue` are the calls run alone; `step` runs the two threads
interleaved, one shared access at a time:

* the producer reads the indices in the two halves of its full test, waits and tests again while it is full,
  copies the packet into the slot one past its index (a copy in progress leaves anything there) and last
  stores the index;
* the consumer compares the indices, and last stores its own and returns the packet of the slot it moved to.

The condition variables only wake a waiting thread early, so a wait may end at any moment. Loads and stores
of the indices take effect in program order.
-/

namespace Iperf2.Ring

/-- `struct PacketRing`; `data` is read only below `maxcount`. -/
structure PacketRing (α : Type) where
  producer : Nat
  consumer : Nat
  maxcount : Nat
  consumerdone : Bool
  awaitcounter : Nat
  mutexEnable : Bool
  data : Nat → α

variable {α : Type}

/-- `packetring_init`; `awakeProducer` says whether a condition for the producer was passed. -/
def packetringInit [Inhabited α] (count : Nat) (awakeProducer : Bool) : PacketRing α where
  producer := 0
  consumer := 0
  maxcount := count
  consumerdone := false
  awaitcounter := 0
  mutexEnable := awakeProducer
  data := fun _ => default

namespace PacketRing

/-- First half of the full test: the producer index at the end, the consumer index at the start. -/
def fullAtEnd (pr : PacketRing α) : Bool := pr.producer == pr.maxcount && pr.consumer == 0

/-- Second half of the full test: the producer index right behind the consumer index. -/
def fullBehind (pr : PacketRing α) : Bool := pr.producer + 1 == pr.consumer

def full (pr : PacketRing α) : Bool := pr.fullAtEnd || pr.fullBehind

def writeindex (pr : PacketRing α) : Nat := Circular.wrap pr.maxcount pr.producer

def readindex (pr : PacketRing α) : Nat := Circular.wrap pr.maxcount pr.consumer

/-- One turn of the loop that waits for room: the counter of waits, when the ring has a condition to wait on. -/
def await (pr : PacketRing α) : PacketRing α :=
  if pr.mutexEnable then { pr with awaitcounter := pr.awaitcounter + 1 } else pr

/-- The `memcpy` into slot `w`. -/
def write (pr : PacketRing α) (w : Nat) (metapacket : α) : PacketRing α :=
  { pr with data := Function.update pr.data w metapacket }

end PacketRing

/-- `packetring_enqueue` run alone; `none` when it would wait for room. -/
def packetringEnqueue (pr : PacketRing α) (metapacket : α) : Option (PacketRing α) :=
  if pr.full then none else some { pr.write pr.writeindex metapacket with producer := pr.writeindex }

/-- `packetring_dequeue` run alone, with the packet its pointer refers to. -/
def packetringDequeue (pr : PacketRing α) : Option α × PacketRing α :=
  if pr.producer = pr.consumer then (none, pr)
  else (some (pr.data pr.readindex), { pr with consumer := pr.readindex })

/-! ## The two threads -/

/-- Where the producer is in `packetring_enqueue`. -/
inductive ProducerPc (α : Type)
  | idle
  | testAtEnd (metapacket : α)
  | testBehind (metapacket : α)
  | await (metapacket : α)
  | copy (metapacket : α) (writeindex : Nat)
  | store (metapacket : α) (writeindex : Nat)

/-- Where the consumer is in `packetring_dequeue`. -/
inductive ConsumerPc
  | idle
  | advance (readindex : Nat)
  deriving DecidableEq

/-- The ring, the two threads, what the completed calls enqueued and returned, and the slot of the pointer the
last dequeue returned. -/
structure Threads (α : Type) where
  ring : PacketRing α
  producerPc : ProducerPc α
  consumerPc : ConsumerPc
  enqueued : List α
  returned : List α
  held : Option Nat

def Threads.init [Inhabited α] (count : Nat) (awakeProducer : Bool) : Threads α where
  ring := packetringInit count awakeProducer
  producerPc := .idle
  consumerPc := .idle
  enqueued := []
  returned := []
  held := none

inductive Label (α : Type)
  /-- The traffic thread calls `packetring_enqueue`. -/
  | enqueue (metapacket : α)
  | testAtEnd
  | testBehind
  /-- The wait for room ends: a signal, the timeout or a spurious wakeup. -/
  | awake
  /-- The copy is in progress and the slot holds `x`. -/
  | tear (x : α)
  | memcpy
  /-- The store of the producer index, which ends the enqueue. -/
  | store
  /-- The reporter calls `packetring_dequeue` and compares the indices. -/
  | dequeue
  /-- The store of the consumer index, which ends a dequeue that returns a packet. -/
  | advance

def step (s : Threads α) : Label α → Option (Threads α)
  | .enqueue p => match s.producerPc with
    | .idle => some { s with producerPc := .testAtEnd p }
    | _ => none
  | .testAtEnd => match s.producerPc with
    | .testAtEnd p =>
      if s.ring.fullAtEnd then some { s with ring := s.ring.await, producerPc := .await p }
      else some { s with producerPc := .testBehind p }
    | _ => none
  | .testBehind => match s.producerPc with
    | .testBehind p =>
      if s.ring.fullBehind then some { s with ring := s.ring.await, producerPc := .await p }
      else some { s with producerPc := .copy p s.ring.writeindex }
    | _ => none
  | .awake => match s.producerPc with
    | .await p => some { s with producerPc := .testAtEnd p }
    | _ => none
  | .tear x => match s.producerPc with
    | .copy _ w => some { s with ring := s.ring.write w x }
    | _ => none
  | .memcpy => match s.producerPc with
    | .copy p w => some { s with ring := s.ring.write w p, producerPc := .store p w }
    | _ => none
  | .store => match s.producerPc with
    | .store p w =>
      some { s with
        ring := { s.ring with producer := w }
        producerPc := .idle
        enqueued := s.enqueued ++ [p] }
    | _ => none
  | .dequeue => match s.consumerPc with
    | .idle =>
      -- equal indices: the call returns NULL
      if s.ring.producer = s.ring.consumer then some { s with held := none }
      else some { s with consumerPc := .advance s.ring.readindex, held := none }
    | _ => none
  | .advance => match s.consumerPc with
    | .advance r =>
      some { s with
        ring := { s.ring with consumer := r }
        consumerPc := .idle
        returned := s.returned ++ [s.ring.data r]
        held := some r }
    | _ => none

/-- The next dequeue call would return NULL. -/
def Threads.DequeuesNull (s : Threads α) : Prop :=
  s.consumerPc = .idle ∧ s.ring.producer = s.ring.consumer

/-- What the ring is for: what was returned is an initial part of what was enqueued, and NULL is returned only
when it is all of it. -/
def Threads.Fifo (s : Threads α) : Prop :=
  s.returned.IsPrefix s.enqueued ∧ (s.DequeuesNull → s.returned = s.enqueued)

/-! ## The interleaved threads run alone are the two calls -/

theorem enqueue_alone (s : Threads α) (p : α) (hp : s.producerPc = .idle) (pr : PacketRing α)
    (h : packetringEnqueue s.ring p = some pr) :
    Transition.run step Transition.Any s [.enqueue p, .testAtEnd, .testBehind, .memcpy, .store] =
      some { s with ring := pr, enqueued := s.enqueued ++ [p] } := by
  obtain ⟨ring, pc, cpc, enq, ret, held⟩ := s
  simp only at hp h
  subst hp
  unfold packetringEnqueue PacketRing.full at h
  split at h
  · cases h
  · rename_i hfull
    simp only [Bool.or_eq_true, not_or, Bool.not_eq_true] at hfull
    cases h
    simp [Transition.run, Transition.Any, step, hfull.1, hfull.2, PacketRing.write]

theorem dequeue_alone (s : Threads α) (hc : s.consumerPc = .idle) (x : α) (pr : PacketRing α)
    (h : packetringDequeue s.ring = (some x, pr)) :
    Transition.run step Transition.Any s [.dequeue, .advance] =
      some { s with ring := pr, returned := s.returned ++ [x], held := some s.ring.readindex } := by
  obtain ⟨ring, pc, cpc, enq, ret, held⟩ := s
  simp only at hc h
  subst hc
  unfold packetringDequeue at h
  split at h
  · cases h
  · rename_i hne
    cases h
    simp [Transition.run, Transition.Any, step, hne]

end Iperf2.Ring
