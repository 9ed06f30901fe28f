import Iperf2.Lib.Bytes

/-!
# Packet filters

The classic BPF machine: an accumulator and an index register of 32 bits, loads from the packet in network byte order,
forward jumps, and a return value which is zero for a packet that is rejected. A load that goes past the end of the packet
rejects it. The kernel's ancillary data, read at offsets from 2^31 on, is not part of the packets here.

* `Packet.Has` : the bytes at an offset; `load_byte_iff`, `load_half_iff`, `load_word_iff` : loads in terms of them;
* `SockFilter.decode` : the instruction codes; `exec` : a program, where `skip` counts the instructions that a jump passes;
* `accepts_ld`, `accepts_ldInd`, `accepts_ldxMsh`, `accepts_jeq`, `accepts_jset`, `accepts_ret` : one rule for each
  instruction; `accepts_when`, `accepts_unless`, `accepts_clear` : tests of which one side rejects; `accepts_check` : a load
  and the comparison after it.
-/

namespace Bpf

/-! ## Packets -/

structure Packet where
  bytes : Buf
  len : Nat

inductive Width
  | byte
  | half
  | word

namespace Packet
variable (p : Packet)

/-- The bytes `bs` stand at offset `o`. -/
def Has (o : Nat) (bs : List Byte) : Prop := o + bs.length ≤ p.len ∧ p.bytes.window o bs.length = bs

def load : Width → Nat → Option (BitVec 32)
  | .byte, o => if o + 1 ≤ p.len then some ((p.bytes o).setWidth 32) else none
  | .half, o => if o + 2 ≤ p.len then some ((p.bytes.be16 o).setWidth 32) else none
  | .word, o => if o + 4 ≤ p.len then some (p.bytes.be32 o) else none

theorem has_append (o : Nat) (bs cs : List Byte) : p.Has o (bs ++ cs) ↔ p.Has o bs ∧ p.Has (o + bs.length) cs := by
  unfold Has
  rw [List.length_append, Buf.window_append]
  constructor
  · rintro ⟨hle, h⟩
    obtain ⟨hbs, hcs⟩ := List.append_inj h (Buf.window_length _ _ _)
    exact ⟨⟨by omega, hbs⟩, ⟨by omega, hcs⟩⟩
  · rintro ⟨⟨-, hbs⟩, ⟨hle, hcs⟩⟩
    exact ⟨by omega, by rw [hbs, hcs]⟩

theorem setWidth_inj {w : Nat} (hw : w ≤ 32) {v v' : BitVec w} : v.setWidth 32 = v'.setWidth 32 ↔ v = v' := by
  constructor
  · intro h
    have hcut := congrArg (BitVec.setWidth w) h
    rwa [BitVec.setWidth_setWidth_of_le _ hw, BitVec.setWidth_setWidth_of_le _ hw, BitVec.setWidth_eq,
      BitVec.setWidth_eq] at hcut
  · exact congrArg (BitVec.setWidth 32)

theorem load_byte_iff (o : Nat) (v : Byte) : p.load .byte o = some (v.setWidth 32) ↔ p.Has o [v] := by
  have hwindow : p.bytes.window o 1 = [p.bytes o] := rfl
  rw [load, Option.ite_none_right_eq_some, Option.some.injEq, setWidth_inj (by decide), Has, List.length_singleton,
    hwindow, List.cons.injEq, and_iff_left rfl]

theorem load_half_iff (o : Nat) (v : BitVec 16) : p.load .half o = some (v.setWidth 32) ↔ p.Has o (bytes16 v) := by
  rw [load, Option.ite_none_right_eq_some, Option.some.injEq, setWidth_inj (by decide)]
  show _ ↔ o + 2 ≤ p.len ∧ p.bytes.window o 2 = bytes16 v
  rw [Buf.window_two, bytes16_inj]

theorem load_word_iff (o : Nat) (v : BitVec 32) : p.load .word o = some v ↔ p.Has o (bytes32 v) := by
  rw [load, Option.ite_none_right_eq_some, Option.some.injEq]
  show _ ↔ o + 4 ≤ p.len ∧ p.bytes.window o 4 = bytes32 v
  rw [Buf.window_four, bytes32_inj]

/-- What a load of a byte brings. -/
theorem exists_load_byte (o : Nat) (P : BitVec 32 → Prop) :
    (∃ v, p.load .byte o = some v ∧ P v) ↔ ∃ b : Byte, p.Has o [b] ∧ P (b.setWidth 32) := by
  constructor
  · rintro ⟨v, hload, hv⟩
    have hbyte := (Option.ite_none_right_eq_some.mp hload).2
    rw [Option.some.injEq] at hbyte
    subst hbyte
    exact ⟨p.bytes o, (p.load_byte_iff o _).mp hload, hv⟩
  · rintro ⟨b, hhas, hb⟩
    exact ⟨_, (p.load_byte_iff o b).mpr hhas, hb⟩

/-- What a load of a half word brings. -/
theorem exists_load_half (o : Nat) (P : BitVec 32 → Prop) :
    (∃ v, p.load .half o = some v ∧ P v) ↔ ∃ h : BitVec 16, p.Has o (bytes16 h) ∧ P (h.setWidth 32) := by
  constructor
  · rintro ⟨v, hload, hv⟩
    have hhalf := (Option.ite_none_right_eq_some.mp hload).2
    rw [Option.some.injEq] at hhalf
    subst hhalf
    exact ⟨p.bytes.be16 o, (p.load_half_iff o _).mp hload, hv⟩
  · rintro ⟨h, hhas, hh⟩
    exact ⟨_, (p.load_half_iff o h).mpr hhas, hh⟩

end Packet

/-! ## Instructions -/

structure SockFilter where
  code : BitVec 16
  jt : BitVec 8
  jf : BitVec 8
  k : BitVec 32

inductive Insn
  /-- `ld [k]` -/
  | ld (width : Width)
  /-- `ld [x + k]` -/
  | ldInd (width : Width)
  /-- `ldxb 4*([k]&0xf)` -/
  | ldxMsh
  | jeq
  | jset
  | ret

def SockFilter.decode (insn : SockFilter) : Option Insn :=
  match insn.code.toNat with
  | 0x20 => some (.ld .word)
  | 0x28 => some (.ld .half)
  | 0x30 => some (.ld .byte)
  | 0x40 => some (.ldInd .word)
  | 0x48 => some (.ldInd .half)
  | 0x50 => some (.ldInd .byte)
  | 0xb1 => some .ldxMsh
  | 0x15 => some .jeq
  | 0x45 => some .jset
  | 0x06 => some .ret
  | _ => none

/-- The value that a program returns. An unknown instruction and the end of the program reject. -/
def exec (p : Packet) : List SockFilter → Nat → BitVec 32 → BitVec 32 → BitVec 32
  | [], _, _, _ => 0
  | _ :: rest, skip + 1, a, x => exec p rest skip a x
  | insn :: rest, 0, a, x =>
    match insn.decode with
    | some (.ld width) =>
      match p.load width insn.k.toNat with
      | some v => exec p rest 0 v x
      | none => 0
    | some (.ldInd width) =>
      match p.load width (x + insn.k).toNat with
      | some v => exec p rest 0 v x
      | none => 0
    | some .ldxMsh =>
      match p.load .byte insn.k.toNat with
      | some v => exec p rest 0 a ((v &&& 0xf) <<< 2)
      | none => 0
    | some .jeq => exec p rest (if a = insn.k then insn.jt else insn.jf).toNat a x
    | some .jset => exec p rest (if a &&& insn.k = 0 then insn.jf else insn.jt).toNat a x
    | some .ret => insn.k
    | none => 0

/-- The packet passes a program that is entered with the registers `a` and `x`. -/
def Accepts (p : Packet) (program : List SockFilter) (a x : BitVec 32) : Prop := exec p program 0 a x ≠ 0

/-- The packet passes the filter. -/
def Passes (program : List SockFilter) (p : Packet) : Prop := Accepts p program 0 0

instance (program : List SockFilter) (p : Packet) : Decidable (Passes program p) :=
  inferInstanceAs (Decidable (exec p program 0 0 0 ≠ 0))

/-! ## Rules -/

section
variable {p : Packet} {insn : SockFilter} {rest : List SockFilter} {a x : BitVec 32}

theorem exec_skip (program : List SockFilter) (skip : Nat) :
    exec p program skip a x = exec p (program.drop skip) 0 a x := by
  induction program generalizing skip with
  | nil => rw [List.drop_nil, exec, exec]
  | cons insn rest ih =>
    cases skip with
    | zero => rw [List.drop_zero]
    | succ skip =>
      rw [exec, List.drop_succ_cons]
      exact ih skip

/-- A load that has to succeed for the program to go on. -/
theorem load_ne_zero (loaded : Option (BitVec 32)) (next : BitVec 32 → BitVec 32) :
    (match loaded with
      | some v => next v
      | none => 0) ≠ 0 ↔ ∃ v, loaded = some v ∧ next v ≠ 0 := by
  cases loaded with
  | none => simp
  | some v => simp

theorem accepts_ld {width : Width} (h : insn.decode = some (.ld width)) :
    Accepts p (insn :: rest) a x ↔ ∃ v, p.load width insn.k.toNat = some v ∧ Accepts p rest v x := by
  unfold Accepts
  rw [exec, h]
  exact load_ne_zero _ _

theorem accepts_ldInd {width : Width} (h : insn.decode = some (.ldInd width)) :
    Accepts p (insn :: rest) a x ↔ ∃ v, p.load width (x + insn.k).toNat = some v ∧ Accepts p rest v x := by
  unfold Accepts
  rw [exec, h]
  exact load_ne_zero _ _

theorem accepts_ldxMsh (h : insn.decode = some .ldxMsh) :
    Accepts p (insn :: rest) a x ↔ ∃ v, p.load .byte insn.k.toNat = some v ∧ Accepts p rest a ((v &&& 0xf) <<< 2) := by
  unfold Accepts
  rw [exec, h]
  exact load_ne_zero _ _

theorem accepts_jeq (h : insn.decode = some .jeq) :
    Accepts p (insn :: rest) a x ↔ Accepts p (rest.drop (if a = insn.k then insn.jt else insn.jf).toNat) a x := by
  unfold Accepts
  rw [exec, h, ← exec_skip]

theorem accepts_jset (h : insn.decode = some .jset) :
    Accepts p (insn :: rest) a x ↔
      Accepts p (rest.drop (if a &&& insn.k = 0 then insn.jf else insn.jt).toNat) a x := by
  unfold Accepts
  rw [exec, h, ← exec_skip]

theorem accepts_ret (h : insn.decode = some .ret) : Accepts p (insn :: rest) a x ↔ insn.k ≠ 0 := by
  unfold Accepts
  rw [exec, h]

/-- The last instruction of a filter. -/
theorem not_accepts_ret_zero {code : BitVec 16} {jt jf : BitVec 8} (h : (⟨code, jt, jf, 0⟩ : SockFilter).decode = some .ret) :
    ¬ Accepts p (⟨code, jt, jf, 0⟩ :: rest) a x := by
  rw [accepts_ret h]
  exact not_not_intro rfl

/-! ### Comparisons that reject -/

/-- A comparison that has to hold. -/
theorem accepts_when (h : insn.decode = some .jeq) (hjt : insn.jt = 0)
    (hreject : ¬ Accepts p (rest.drop insn.jf.toNat) a x) :
    Accepts p (insn :: rest) a x ↔ a = insn.k ∧ Accepts p rest insn.k x := by
  rw [accepts_jeq h]
  by_cases hk : a = insn.k
  · rw [if_pos hk, hjt, ← hk]
    exact (and_iff_right rfl).symm
  · rw [if_neg hk]
    exact ⟨fun haccepts => absurd haccepts hreject, fun hand => absurd hand.1 hk⟩

/-- A comparison that must not hold. -/
theorem accepts_unless (h : insn.decode = some .jeq) (hjf : insn.jf = 0)
    (hreject : ¬ Accepts p (rest.drop insn.jt.toNat) a x) :
    Accepts p (insn :: rest) a x ↔ a ≠ insn.k ∧ Accepts p rest a x := by
  rw [accepts_jeq h]
  by_cases hk : a = insn.k
  · rw [if_pos hk]
    exact ⟨fun haccepts => absurd haccepts hreject, fun hand => absurd hk hand.1⟩
  · rw [if_neg hk, hjf]
    exact (and_iff_right hk).symm

/-- Bits that must not be set. -/
theorem accepts_clear (h : insn.decode = some .jset) (hjf : insn.jf = 0)
    (hreject : ¬ Accepts p (rest.drop insn.jt.toNat) a x) :
    Accepts p (insn :: rest) a x ↔ a &&& insn.k = 0 ∧ Accepts p rest a x := by
  rw [accepts_jset h]
  by_cases hk : a &&& insn.k = 0
  · rw [if_pos hk, hjf]
    exact (and_iff_right hk).symm
  · rw [if_neg hk]
    exact ⟨fun haccepts => absurd haccepts hreject, fun hand => absurd hand.1 hk⟩

theorem exists_eq_and {loaded : Option (BitVec 32)} {k : BitVec 32} {P : Prop} :
    (∃ v, loaded = some v ∧ v = k ∧ P) ↔ loaded = some k ∧ P := by
  constructor
  · rintro ⟨v, hload, rfl, hP⟩
    exact ⟨hload, hP⟩
  · rintro ⟨hload, hP⟩
    exact ⟨k, hload, rfl, hP⟩

variable {jeq : SockFilter} {width : Width}

/-- A load and the comparison with what has to stand there. -/
theorem accepts_check (h : insn.decode = some (.ld width)) (hjeq : jeq.decode = some .jeq) (hjt : jeq.jt = 0)
    (hreject : ∀ v, ¬ Accepts p (rest.drop jeq.jf.toNat) v x) :
    Accepts p (insn :: jeq :: rest) a x ↔ p.load width insn.k.toNat = some jeq.k ∧ Accepts p rest jeq.k x := by
  rw [accepts_ld h, ← exists_eq_and]
  exact exists_congr fun v => and_congr_right fun _ => accepts_when hjeq hjt (hreject v)

/-- The same with a load behind the index register. -/
theorem accepts_checkInd (h : insn.decode = some (.ldInd width)) (hjeq : jeq.decode = some .jeq) (hjt : jeq.jt = 0)
    (hreject : ∀ v, ¬ Accepts p (rest.drop jeq.jf.toNat) v x) :
    Accepts p (insn :: jeq :: rest) a x ↔
      p.load width (x + insn.k).toNat = some jeq.k ∧ Accepts p rest jeq.k x := by
  rw [accepts_ldInd h, ← exists_eq_and]
  exact exists_congr fun v => and_congr_right fun _ => accepts_when hjeq hjt (hreject v)

end

end Bpf
