import Iperf2.Lib.Bytes

/-!
# Programs that read a buffer

A `Decoder` is what a function does that reads fields of a struct laid over a buffer: it reads a word, and goes on
with its value. `run` is its result on a buffer, `reads` are the fields it reads there.

* `run_bind`, `covered_bind`, `covered_ite` : the rules for sequences and branches;
* `Covered n m b` : all fields that `m` reads of `b` lie in the first `n` bytes;
* `run_congr` : a covered decoder depends on these bytes alone.
-/

/-- A program that reads 16-bit and 32-bit words. -/
inductive Decoder (α : Type)
  | done (a : α)
  | half (o : Nat) (k : BitVec 16 → Decoder α)
  | word (o : Nat) (k : BitVec 32 → Decoder α)

namespace Decoder

variable {α β : Type}

protected def bind : Decoder α → (α → Decoder β) → Decoder β
  | done a, f => f a
  | half o k, f => half o fun v => (k v).bind f
  | word o k, f => word o fun v => (k v).bind f

instance : Monad Decoder where
  pure := done
  bind := Decoder.bind

/-- `ntohs` of the word at `o` -/
def ntohs (o : Nat) : Decoder (BitVec 16) := half o done

/-- `ntohl` of the word at `o` -/
def ntohl (o : Nat) : Decoder (BitVec 32) := word o done

/-- The result on a buffer. -/
def run : Decoder α → Buf → α
  | done a, _ => a
  | half o k, b => (k (b.be16 o)).run b
  | word o k, b => (k (b.be32 o)).run b

/-- The offsets and lengths of the fields that are read of a buffer. -/
def reads : Decoder α → Buf → List (Nat × Nat)
  | done _, _ => []
  | half o k, b => (o, 2) :: (k (b.be16 o)).reads b
  | word o k, b => (o, 4) :: (k (b.be32 o)).reads b

/-- All fields that are read lie in the first `n` bytes. -/
def Covered (n : Nat) (m : Decoder α) (b : Buf) : Prop := ∀ field ∈ m.reads b, field.1 + field.2 ≤ n

/-! ## Rules -/

section
variable (n : Nat) (b : Buf)

@[simp] theorem run_pure (a : α) : (pure a : Decoder α).run b = a := rfl

@[simp] theorem run_ntohs (o : Nat) : (ntohs o).run b = b.be16 o := rfl

@[simp] theorem run_ntohl (o : Nat) : (ntohl o).run b = b.be32 o := rfl

@[simp] theorem run_bind (m : Decoder α) (f : α → Decoder β) : (m >>= f).run b = (f (m.run b)).run b := by
  induction m with
  | done a => rfl
  | half o k ih => exact ih (b.be16 o)
  | word o k ih => exact ih (b.be32 o)

theorem reads_bind (m : Decoder α) (f : α → Decoder β) :
    (m >>= f).reads b = m.reads b ++ (f (m.run b)).reads b := by
  induction m with
  | done a => rfl
  | half o k ih => exact congrArg ((o, 2) :: ·) (ih (b.be16 o))
  | word o k ih => exact congrArg ((o, 4) :: ·) (ih (b.be32 o))

theorem run_ite (c : Prop) [Decidable c] (m m' : Decoder α) :
    (if c then m else m').run b = if c then m.run b else m'.run b := by
  split <;> rfl

@[simp] theorem covered_pure (a : α) : Covered n (pure a : Decoder α) b := by
  intro field hfield
  cases hfield

@[simp] theorem covered_ntohs (o : Nat) : Covered n (ntohs o) b ↔ o + 2 ≤ n := by
  constructor
  · intro h
    exact h (o, 2) (List.mem_singleton_self _)
  · intro h field hfield
    rw [List.mem_singleton.mp hfield]
    exact h

@[simp] theorem covered_ntohl (o : Nat) : Covered n (ntohl o) b ↔ o + 4 ≤ n := by
  constructor
  · intro h
    exact h (o, 4) (List.mem_singleton_self _)
  · intro h field hfield
    rw [List.mem_singleton.mp hfield]
    exact h

@[simp] theorem covered_bind (m : Decoder α) (f : α → Decoder β) :
    Covered n (m >>= f) b ↔ Covered n m b ∧ Covered n (f (m.run b)) b := by
  unfold Covered
  rw [reads_bind]
  constructor
  · intro h
    exact ⟨fun field hfield => h field (List.mem_append_left _ hfield),
      fun field hfield => h field (List.mem_append_right _ hfield)⟩
  · intro h field hfield
    rcases List.mem_append.mp hfield with hfield | hfield
    · exact h.1 field hfield
    · exact h.2 field hfield

theorem covered_ite (c : Prop) [Decidable c] (m m' : Decoder α) :
    Covered n (if c then m else m') b ↔ (c → Covered n m b) ∧ (¬ c → Covered n m' b) := by
  split
  · rename_i hc
    exact ⟨fun h => ⟨fun _ => h, fun hn => absurd hc hn⟩, fun h => h.1 hc⟩
  · rename_i hc
    exact ⟨fun h => ⟨fun hn => absurd hn hc, fun _ => h⟩, fun h => h.2 hc⟩

end

/-- A decoder whose fields lie in the first `n` bytes depends on these alone. -/
theorem run_congr {n : Nat} {m : Decoder α} {b b' : Buf} (h : Covered n m b) (hagree : Agree n b b') :
    m.run b = m.run b' := by
  induction m with
  | done a => rfl
  | half o k ih =>
    have hfield : o + 2 ≤ n := h (o, 2) (List.mem_cons_self ..)
    have hword : b.be16 o = b'.be16 o := hagree.be16 hfield
    show (k (b.be16 o)).run b = (k (b'.be16 o)).run b'
    rw [← hword]
    exact ih _ fun field hmem => h field (List.mem_cons_of_mem _ hmem)
  | word o k ih =>
    have hfield : o + 4 ≤ n := h (o, 4) (List.mem_cons_self ..)
    have hword : b.be32 o = b'.be32 o := hagree.be32 hfield
    show (k (b.be32 o)).run b = (k (b'.be32 o)).run b'
    rw [← hword]
    exact ih _ fun field hmem => h field (List.mem_cons_of_mem _ hmem)

/-- And it reads the same fields of both. -/
theorem Covered.congr {n : Nat} {m : Decoder α} {b b' : Buf} (h : Covered n m b) (hagree : Agree n b b') :
    Covered n m b' := by
  induction m with
  | done a => exact h
  | half o k ih =>
    have hfield : o + 2 ≤ n := h (o, 2) (List.mem_cons_self ..)
    have hrest := ih _ fun field hmem => h field (List.mem_cons_of_mem _ hmem)
    rw [hagree.be16 hfield] at hrest
    intro field hmem
    rcases List.mem_cons.mp hmem with rfl | hmem
    · exact hfield
    · exact hrest field hmem
  | word o k ih =>
    have hfield : o + 4 ≤ n := h (o, 4) (List.mem_cons_self ..)
    have hrest := ih _ fun field hmem => h field (List.mem_cons_of_mem _ hmem)
    rw [hagree.be32 hfield] at hrest
    intro field hmem
    rcases List.mem_cons.mp hmem with rfl | hmem
    · exact hfield
    · exact hrest field hmem

end Decoder
