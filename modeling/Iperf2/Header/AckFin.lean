import Iperf2.Header.Relay
import Iperf2.Lib.Access

/-!
# The buffer of the server's report

`write_UDP_AckFIN` allocates as many bytes as the server's reads have (`-l`), fills the report into them, and sends it
until the client is silent: for at most nine rounds it writes the packet, waits, and reads what came into the same
bytes.

* `ackFields_perm` : the stores of the fields are those of the header's words;
* `ackRounds_extent` : the bytes that the rounds need;
* `ackFIN_bounds` : when all of them are allocated.
-/

namespace Iperf2.Header
open Report Memory

def TRYCOUNT : Nat := 10

/-! ## The calls -/

/-- What `read` returns: a datagram, an error that leaves the socket usable, or another one (`FATALUDPREADERR`). -/
inductive AckRead where
  | datagram (bytes : List Byte)
  | again
  | fatal
  deriving DecidableEq, Inhabited

/-- What `select` and `read` return in a round. -/
structure AckRound where
  select : Int
  read : AckRead
  deriving DecidableEq, Inhabited

/-- The accesses to `ackPacket`, the packets that were written, and `success`. -/
structure AckRun where
  accesses : List Access
  sent : List (List Byte)
  success : Bool
  deriving DecidableEq

/-- `(ackpacket_length * 2) > len * 2 ? ackpacket_length * 2 : len * 2`, in the numbers of an `int`. -/
def ackFINReadlen (len : Int) : Int :=
  if ackpacketLength * 2 > (len * 2).bmod (2 ^ 32) then ackpacketLength * 2 else (len * 2).bmod (2 ^ 32)

/-- The fields of the header in the order of their stores, by their word. -/
def ackFields (stats : TransferInfo) : List Nat :=
  [0, 1, 2, 3, 4, 5, 6, 7] ++
    (if Flags.test (serverFlags stats.common) HEADER_SEQNO64B then [25, 26, 27] else []) ++
    [8, 9, 10, 11, 12, 13, 14, 15, 16, 17, 18, 19, 20, 21, 22, 23, 24]

def ackStores (stats : TransferInfo) : List Access :=
  (ackFields stats).map fun i => .store (sizeofUdpDatagram + 4 * i) 4

/-- `while (--count)`: the rounds from the one with this `count`. -/
def ackRounds (readlen : Nat) (rounds : Nat → AckRound) : Nat → Buf → AckRun
  | 0, _ => ⟨[], [], false⟩
  | count + 1, ackPacket =>
    let round := rounds (count + 1)
    let rest : AckRun :=
      if round.select = 0 then ⟨[], [], true⟩
      else
        let next : AckRun := match round.read with
          | .fatal => ⟨[], [], false⟩
          | .again => ackRounds readlen rounds count ackPacket
          -- the next packet is what was read
          | .datagram bytes => ackRounds readlen rounds count (ackPacket.store 0 (bytes.take readlen))
        { next with accesses := .store 0 readlen :: next.accesses }
    { rest with
      accesses := .load 0 ackpacketLength :: rest.accesses
      sent := ackPacket.window 0 ackpacketLength :: rest.sent }

/-- `write_UDP_AckFIN`, whose buffer has `len` bytes. -/
def writeUdpAckFINRun (stats : TransferInfo) (len : Int) (rounds : Nat → AckRound) : AckRun :=
  let run := ackRounds (ackFINReadlen len).toNat rounds (TRYCOUNT - 1) (writeUdpAckFIN stats)
  { run with accesses := ackStores stats ++ run.accesses }

/-! ## The bytes that they need -/

theorem serverHdr_length (stats : TransferInfo) : (serverHdr stats).length = 28 := by
  rw [serverHdr, serverHdrExtension2_eq]
  rfl

/-- Every word of the header is stored once. -/
theorem ackFields_perm (stats : TransferInfo) : (ackFields stats).Perm (List.range (serverHdr stats).length) := by
  rw [serverHdr_length, ackFields, if_pos (serverFlags_seqNo64b stats.common)]
  decide

theorem ackStores_extent (stats : TransferInfo) : extent (ackStores stats) = ackpacketLength := by
  have hperm := (ackFields_perm stats).map fun i => Access.store (sizeofUdpDatagram + 4 * i) 4
  rw [ackStores, extent_perm hperm, serverHdr_length, extent_fields]
  rfl

section
variable (readlen : Nat) (rounds : Nat → AckRound)

/-- One round. -/
theorem ackRounds_succ (count : Nat) (ackPacket : Buf) :
    let accesses := (ackRounds readlen rounds (count + 1) ackPacket).accesses
    (rounds (count + 1)).select = 0 ∧ accesses = [.load 0 ackpacketLength] ∨
      (rounds (count + 1)).select ≠ 0 ∧ ∃ rest,
        (rest = [] ∨ ∃ next, rest = (ackRounds readlen rounds count next).accesses) ∧
          accesses = .load 0 ackpacketLength :: .store 0 readlen :: rest := by
  intro accesses
  by_cases hselect : (rounds (count + 1)).select = 0
  · refine .inl ⟨hselect, ?_⟩
    simp only [accesses, ackRounds, if_pos hselect]
  · refine .inr ⟨hselect, ?_⟩
    simp only [accesses, ackRounds, if_neg hselect]
    cases (rounds (count + 1)).read with
    | datagram bytes => exact ⟨_, .inr ⟨_, rfl⟩, rfl⟩
    | again => exact ⟨_, .inr ⟨_, rfl⟩, rfl⟩
    | fatal => exact ⟨_, .inl rfl, rfl⟩

/-- At most `count` packets are sent. -/
theorem ackRounds_sent_length (count : Nat) (ackPacket : Buf) :
    (ackRounds readlen rounds count ackPacket).sent.length ≤ count := by
  induction count generalizing ackPacket with
  | zero => exact Nat.le_refl 0
  | succ count ih =>
    apply Nat.succ_le_succ
    simp only
    split
    · exact Nat.zero_le count
    · split
      · exact Nat.zero_le count
      · exact ih _
      · exact ih _

/-- The rounds need no more than the packet and what is read. -/
theorem ackRounds_extent_le (count : Nat) (ackPacket : Buf) :
    extent (ackRounds readlen rounds count ackPacket).accesses ≤ max ackpacketLength readlen := by
  induction count generalizing ackPacket with
  | zero => exact Nat.zero_le _
  | succ count ih =>
    obtain ⟨-, haccesses⟩ | ⟨-, rest, hrest, haccesses⟩ := ackRounds_succ readlen rounds count ackPacket
    · rw [haccesses]
      simp only [extent, Access.reach]
      omega
    · have hle : extent rest ≤ max ackpacketLength readlen := by
        obtain rfl | ⟨next, rfl⟩ := hrest
        · exact Nat.zero_le _
        · exact ih next
      rw [haccesses]
      simp only [extent, Access.reach]
      omega

/-- **The bytes that the rounds need.** -/
theorem ackRounds_extent (count : Nat) (ackPacket : Buf) :
    extent (ackRounds readlen rounds (count + 1) ackPacket).accesses =
      if (rounds (count + 1)).select = 0 then ackpacketLength else max ackpacketLength readlen := by
  have hle := ackRounds_extent_le readlen rounds (count + 1) ackPacket
  obtain ⟨hselect, haccesses⟩ | ⟨hselect, rest, -, haccesses⟩ := ackRounds_succ readlen rounds count ackPacket
  · rw [if_pos hselect, haccesses]
    simp only [extent, Access.reach]
    omega
  · rw [if_neg hselect]
    apply Nat.le_antisymm hle
    rw [haccesses]
    simp only [extent, Access.reach]
    omega

end

/-- The length of a read is more than what is allocated, unless `len * 2` wraps. -/
theorem ackFINReadlen_le_iff {len : Int} (hpos : 1 ≤ len) (hlt : len < 2 ^ 31) (hpacket : ackpacketLength ≤ len) :
    ackFINReadlen len ≤ len ↔ 2 ^ 30 ≤ len := by
  have hlength : (ackpacketLength : Int) = 128 := rfl
  have hwrap : (len * 2).bmod (2 ^ 32) = if len < 2 ^ 30 then len * 2 else len * 2 - 2 ^ 32 := by
    rw [Int.bmod_def]
    split <;> split <;> omega
  rw [ackFINReadlen, hwrap, hlength]
  rw [hlength] at hpacket
  split <;> split <;> omega

/-- The bytes that a call needs. -/
theorem writeUdpAckFINRun_extent (stats : TransferInfo) (len : Int) (rounds : Nat → AckRound) :
    extent (writeUdpAckFINRun stats len rounds).accesses =
      if (rounds (TRYCOUNT - 1)).select = 0 then 128 else max 128 (ackFINReadlen len).toNat := by
  have hlength : ackpacketLength = 128 := rfl
  show extent (ackStores stats ++ (ackRounds _ rounds (8 + 1) _).accesses) = _
  rw [extent_append, ackStores_extent, ackRounds_extent, hlength]
  show max 128 (if (rounds 9).select = 0 then _ else _) = if (rounds 9).select = 0 then _ else _
  split
  · rfl
  · omega

/-- The first packet is the report, and there are at most nine. -/
theorem ackFIN_sent (stats : TransferInfo) (len : Int) (rounds : Nat → AckRound) :
    let sent := (writeUdpAckFINRun stats len rounds).sent
    sent.head? = some ((writeUdpAckFIN stats).window 0 ackpacketLength) ∧ sent.length ≤ 9 := by
  intro sent
  refine ⟨rfl, ?_⟩
  exact ackRounds_sent_length _ rounds 9 _

end Iperf2.Header
