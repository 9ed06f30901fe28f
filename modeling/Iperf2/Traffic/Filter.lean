import Iperf2.Lib.Bpf

/-!
# The packet filters of a connected flow

With `--l2checks` the listener attaches a filter to the raw socket of a flow, `SockAddr_v4_Connect_BPF` or
`SockAddr_v6_Connect_BPF`, and with a tap device `SockAddr_v4_Connect_TAP_BPF`. Each is a program that `tcpdump` printed
for sample addresses, with the constants of the comparisons replaced by their index.

* `patch` : a constant of a program replaced;
* `UdpFlowV4`, `UdpFlowV6` : the frames of a flow;
* `connected_filters` : each filter passes the frames of its flow.
-/

namespace Iperf2.Traffic
open Bpf

/-! ## Addresses -/

/-- `struct in6_addr`, the four words of `s6_addr32`. -/
structure In6Addr where
  word0 : BitVec 32
  word1 : BitVec 32
  word2 : BitVec 32
  word3 : BitVec 32

/-- The bytes in memory of an address. -/
def In6Addr.memory (host : Endian) (addr : In6Addr) : List Byte :=
  host.memory32 addr.word0 ++ host.memory32 addr.word1 ++ host.memory32 addr.word2 ++ host.memory32 addr.word3

/-! ## The filters -/

/-- `udp_filter[i].k = k` -/
def patch (udpFilter : List SockFilter) (i : Nat) (k : BitVec 32) : List SockFilter :=
  udpFilter.modify i fun insn => { insn with k }

section
variable (host : Endian)

def sockAddrV4ConnectBPF (dstip srcip : BitVec 32) (dstport srcport : BitVec 16) : List SockFilter :=
  let udpFilter : List SockFilter := [
    ⟨0x28, 0, 0, 0x0000000c⟩,
    ⟨0x15, 15, 0, 0x000086dd⟩,
    ⟨0x15, 0, 14, 0x00000800⟩,
    ⟨0x30, 0, 0, 0x00000017⟩,
    ⟨0x15, 0, 12, 0x00000011⟩,
    ⟨0x20, 0, 0, 0x0000001a⟩,
    ⟨0x15, 0, 10, 0x7f000001⟩,
    ⟨0x20, 0, 0, 0x0000001e⟩,
    ⟨0x15, 0, 8, 0x7f000002⟩,
    ⟨0x28, 0, 0, 0x00000014⟩,
    ⟨0x45, 6, 0, 0x00001fff⟩,
    ⟨0xb1, 0, 0, 0x0000000e⟩,
    ⟨0x48, 0, 0, 0x0000000e⟩,
    ⟨0x15, 0, 3, 0x00001389⟩,
    ⟨0x48, 0, 0, 0x00000010⟩,
    ⟨0x15, 0, 1, 0x0000138a⟩,
    ⟨0x6, 0, 0, 0x00040000⟩,
    ⟨0x6, 0, 0, 0x00000000⟩]
  let udpFilter := patch udpFilter 6 (host.htonl srcip)
  let udpFilter := patch udpFilter 8 (host.htonl dstip)
  let udpFilter := patch udpFilter 13 ((host.htons srcport).setWidth 32)
  patch udpFilter 15 ((host.htons dstport).setWidth 32)

def sockAddrV4ConnectTAPBPF (dstip srcip : BitVec 32) (dstport srcport : BitVec 16) : List SockFilter :=
  let udpFilter : List SockFilter := [
    ⟨0x28, 0, 0, 0x0000000c⟩,
    ⟨0x15, 0, 14, 0x00000800⟩,
    ⟨0x20, 0, 0, 0x0000001a⟩,
    ⟨0x15, 0, 12, 0x7f000001⟩,
    ⟨0x20, 0, 0, 0x0000001e⟩,
    ⟨0x15, 0, 10, 0x7f000002⟩,
    ⟨0x30, 0, 0, 0x00000017⟩,
    ⟨0x15, 0, 8, 0x00000011⟩,
    ⟨0x28, 0, 0, 0x00000014⟩,
    ⟨0x45, 6, 0, 0x00001fff⟩,
    ⟨0xb1, 0, 0, 0x0000000e⟩,
    ⟨0x48, 0, 0, 0x0000000e⟩,
    ⟨0x15, 0, 3, 0x00001389⟩,
    ⟨0x48, 0, 0, 0x00000010⟩,
    ⟨0x15, 0, 1, 0x0000138a⟩,
    ⟨0x6, 0, 0, 0x00040000⟩,
    ⟨0x6, 0, 0, 0x00000000⟩]
  let udpFilter := patch udpFilter 3 (host.htonl srcip)
  let udpFilter := patch udpFilter 5 (host.htonl dstip)
  let udpFilter := patch udpFilter 12 ((host.htons srcport).setWidth 32)
  patch udpFilter 14 ((host.htons dstport).setWidth 32)

def sockAddrV6ConnectBPF (dst src : In6Addr) (dstport srcport : BitVec 16) : List SockFilter :=
  let udpFilter : List SockFilter := [
    ⟨0x28, 0, 0, 0x0000000c⟩,
    ⟨0x15, 0, 30, 0x000086dd⟩,
    ⟨0x30, 0, 0, 0x00000014⟩,
    ⟨0x15, 3, 0, 0x00000011⟩,
    ⟨0x15, 0, 27, 0x0000002c⟩,
    ⟨0x30, 0, 0, 0x00000036⟩,
    ⟨0x15, 0, 25, 0x00000011⟩,
    ⟨0x20, 0, 0, 0x00000016⟩,
    ⟨0x15, 0, 23, 0xfe800000⟩,
    ⟨0x20, 0, 0, 0x0000001a⟩,
    ⟨0x15, 0, 21, 0x00000000⟩,
    ⟨0x20, 0, 0, 0x0000001e⟩,
    ⟨0x15, 0, 19, 0x428d5cff⟩,
    ⟨0x20, 0, 0, 0x00000022⟩,
    ⟨0x15, 0, 17, 0xfe6a2d85⟩,
    ⟨0x20, 0, 0, 0x00000026⟩,
    ⟨0x15, 0, 15, 0xfe800000⟩,
    ⟨0x20, 0, 0, 0x0000002a⟩,
    ⟨0x15, 0, 13, 0x00000000⟩,
    ⟨0x20, 0, 0, 0x0000002e⟩,
    ⟨0x15, 0, 11, 0x428d5cff⟩,
    ⟨0x20, 0, 0, 0x00000032⟩,
    ⟨0x15, 0, 9, 0xfe6a2d86⟩,
    ⟨0x30, 0, 0, 0x00000014⟩,
    ⟨0x15, 2, 0, 0x00000084⟩,
    ⟨0x15, 1, 0, 0x00000006⟩,
    ⟨0x15, 0, 5, 0x00000011⟩,
    ⟨0x28, 0, 0, 0x00000036⟩,
    ⟨0x15, 0, 3, 0x00001389⟩,
    ⟨0x28, 0, 0, 0x00000038⟩,
    ⟨0x15, 0, 1, 0x0000138a⟩,
    ⟨0x6, 0, 0, 0x00040000⟩,
    ⟨0x6, 0, 0, 0x00000000⟩]
  let udpFilter := patch udpFilter 8 (host.htonl src.word0)
  let udpFilter := patch udpFilter 10 (host.htonl src.word1)
  let udpFilter := patch udpFilter 12 (host.htonl src.word2)
  let udpFilter := patch udpFilter 14 (host.htonl src.word3)
  let udpFilter := patch udpFilter 16 (host.htonl dst.word0)
  let udpFilter := patch udpFilter 18 (host.htonl dst.word1)
  let udpFilter := patch udpFilter 20 (host.htonl dst.word2)
  let udpFilter := patch udpFilter 22 (host.htonl dst.word3)
  let udpFilter := patch udpFilter 28 ((host.htons srcport).setWidth 32)
  patch udpFilter 30 ((host.htons dstport).setWidth 32)

end

/-! ## The frames of a flow -/

/-- An Ethernet frame with the first or only fragment of an IPv4 packet that carries UDP, from one address and port to
another one. The header has the length that its first byte says. -/
def UdpFlowV4 (src dst srcport dstport : List Byte) (p : Packet) : Prop :=
  p.Has 12 [0x08, 0x00] ∧ p.Has 23 [17] ∧ p.Has 26 src ∧ p.Has 30 dst ∧
    (∃ fragment, p.Has 20 (bytes16 fragment) ∧ fragment &&& 0x1fff = 0) ∧
    ∃ versionIhl, p.Has 14 [versionIhl] ∧ p.Has (14 + 4 * (versionIhl.toNat % 16)) (srcport ++ dstport)

/-- An Ethernet frame with an IPv6 packet whose next header is UDP, from one address and port to another one. -/
def UdpFlowV6 (src dst srcport dstport : List Byte) (p : Packet) : Prop :=
  p.Has 12 [0x86, 0xdd] ∧ p.Has 20 [17] ∧ p.Has 22 src ∧ p.Has 38 dst ∧ p.Has 54 (srcport ++ dstport)


/-! ## What the filters pass -/

/-- `X + k` after `ldxb 4*([14]&0xf)`. -/
theorem msh_toNat (versionIhl : Byte) (k : BitVec 32) (hk : k.toNat < 2 ^ 31) :
    ((versionIhl.setWidth 32 &&& 0xf) <<< 2 + k).toNat = k.toNat + 4 * (versionIhl.toNat % 16) := by
  have hlt := versionIhl.isLt
  have hihl : (versionIhl.setWidth 32 &&& 0xf).toNat = versionIhl.toNat % 16 := by
    rw [BitVec.toNat_and, BitVec.toNat_setWidth, Nat.mod_eq_of_lt (by omega)]
    exact Nat.and_two_pow_sub_one_eq_mod _ 4
  rw [BitVec.toNat_add, BitVec.toNat_shiftLeft, hihl, Nat.shiftLeft_eq]
  omega

theorem fragment_iff (fragment : BitVec 16) :
    fragment.setWidth 32 &&& 0x00001fff = (0 : BitVec 32) ↔ fragment &&& 0x1fff = 0 := by
  have hmask : (0x00001fff : BitVec 32) = (0x1fff : BitVec 16).setWidth 32 := by decide
  have hzero : (0 : BitVec 32) = (0 : BitVec 16).setWidth 32 := by decide
  rw [hmask, hzero, ← BitVec.setWidth_and]
  exact Packet.setWidth_inj (by decide)

section
variable {p : Packet} {a x : BitVec 32}

/-- The comparisons of the ports behind an IPv4 header. -/
theorem accepts_ports_ind (versionIhl : Byte) (srcport dstport : BitVec 16) :
    Accepts p [
      ⟨0x48, 0, 0, 0x0000000e⟩,
      ⟨0x15, 0, 3, srcport.setWidth 32⟩,
      ⟨0x48, 0, 0, 0x00000010⟩,
      ⟨0x15, 0, 1, dstport.setWidth 32⟩,
      ⟨0x6, 0, 0, 0x00040000⟩,
      ⟨0x6, 0, 0, 0x00000000⟩] a ((versionIhl.setWidth 32 &&& 0xf) <<< 2) ↔
    p.Has (14 + 4 * (versionIhl.toNat % 16)) (bytes16 srcport ++ bytes16 dstport) := by
  have hoffset : 14 + 4 * (versionIhl.toNat % 16) + (bytes16 srcport).length = 16 + 4 * (versionIhl.toNat % 16) := by
    show 14 + 4 * (versionIhl.toNat % 16) + 2 = _
    omega
  refine (accepts_checkInd rfl rfl rfl fun v => not_accepts_ret_zero rfl).trans ?_
  rw [msh_toNat _ _ (by decide), Packet.has_append, hoffset]
  refine and_congr (p.load_half_iff _ srcport) ?_
  refine (accepts_checkInd rfl rfl rfl fun v => not_accepts_ret_zero rfl).trans ?_
  rw [msh_toNat _ _ (by decide), accepts_ret rfl]
  exact (and_iff_left (by decide)).trans (p.load_half_iff _ dstport)

/-- The test of the fragment offset and the length of the IPv4 header, with what follows. -/
theorem accepts_fragment {jt : BitVec 8} {rest : List SockFilter} {P : Byte → Prop}
    (hreject : ∀ v, ¬ Accepts p (List.drop jt.toNat (⟨0xb1, 0, 0, 0x0000000e⟩ :: rest)) v x)
    (hrest : ∀ (v : BitVec 32) (versionIhl : Byte),
      Accepts p rest v ((versionIhl.setWidth 32 &&& 0xf) <<< 2) ↔ P versionIhl) :
    Accepts p (⟨0x28, 0, 0, 0x00000014⟩ :: ⟨0x45, jt, 0, 0x00001fff⟩ :: ⟨0xb1, 0, 0, 0x0000000e⟩ :: rest) a x ↔
      (∃ fragment, p.Has 20 (bytes16 fragment) ∧ fragment &&& 0x1fff = 0) ∧
        ∃ versionIhl, p.Has 14 [versionIhl] ∧ P versionIhl := by
  rw [accepts_ld rfl, Packet.exists_load_half, ← exists_and_right]
  apply exists_congr
  intro fragment
  rw [and_assoc]
  apply and_congr_right
  intro _
  refine (accepts_clear rfl rfl (hreject _)).trans (and_congr (fragment_iff fragment) ?_)
  rw [accepts_ldxMsh rfl, Packet.exists_load_byte]
  exact exists_congr fun versionIhl => and_congr_right fun _ => hrest _ versionIhl

/-- The end of both IPv4 filters. -/
theorem accepts_fragment_ports (srcport dstport : BitVec 16) :
    Accepts p [
      ⟨0x28, 0, 0, 0x00000014⟩,
      ⟨0x45, 6, 0, 0x00001fff⟩,
      ⟨0xb1, 0, 0, 0x0000000e⟩,
      ⟨0x48, 0, 0, 0x0000000e⟩,
      ⟨0x15, 0, 3, srcport.setWidth 32⟩,
      ⟨0x48, 0, 0, 0x00000010⟩,
      ⟨0x15, 0, 1, dstport.setWidth 32⟩,
      ⟨0x6, 0, 0, 0x00040000⟩,
      ⟨0x6, 0, 0, 0x00000000⟩] a x ↔
    (∃ fragment, p.Has 20 (bytes16 fragment) ∧ fragment &&& 0x1fff = 0) ∧
      ∃ versionIhl, p.Has 14 [versionIhl] ∧
        p.Has (14 + 4 * (versionIhl.toNat % 16)) (bytes16 srcport ++ bytes16 dstport) := by
  apply accepts_fragment
  · intro v
    exact not_accepts_ret_zero rfl
  · intro v versionIhl
    exact accepts_ports_ind versionIhl srcport dstport

/-- The first comparisons of the filter of a raw socket: IPv6 is sorted out before IPv4 is asked for. -/
theorem accepts_ethertype {jt jf : BitVec 8} {rest : List SockFilter}
    (h6 : ∀ v, ¬ Accepts p (List.drop jt.toNat (⟨0x15, 0, jf, 0x00000800⟩ :: rest)) v x)
    (h4 : ∀ v, ¬ Accepts p (rest.drop jf.toNat) v x) :
    Accepts p (⟨0x28, 0, 0, 0x0000000c⟩ :: ⟨0x15, jt, 0, 0x000086dd⟩ :: ⟨0x15, 0, jf, 0x00000800⟩ :: rest) a x ↔
      p.Has 12 [0x08, 0x00] ∧ Accepts p rest 0x00000800 x := by
  have hcheck : p.load .half 12 = some 0x00000800 ↔ p.Has 12 [0x08, 0x00] := p.load_half_iff 12 0x0800
  rw [accepts_ld rfl, ← hcheck, ← exists_eq_and]
  apply exists_congr
  intro v
  apply and_congr_right
  intro _
  rw [accepts_unless rfl rfl (h6 v), accepts_when rfl rfl (h4 v)]
  constructor
  · rintro ⟨-, hrest⟩
    exact hrest
  · rintro ⟨rfl, hrest⟩
    exact ⟨(by decide : (0x00000800 : BitVec 32) ≠ 0x000086dd), rfl, hrest⟩

end

section
variable (host : Endian) (p : Packet)

theorem passes_sockAddrV4ConnectBPF (dstip srcip : BitVec 32) (dstport srcport : BitVec 16) :
    Passes (sockAddrV4ConnectBPF host dstip srcip dstport srcport) p ↔
      UdpFlowV4 (host.memory32 srcip) (host.memory32 dstip) (host.memory16 srcport) (host.memory16 dstport) p := by
  have hproto : p.load .byte 23 = some 0x00000011 ↔ p.Has 23 [17] := p.load_byte_iff 23 17
  simp only [← Endian.bytes32_htonl, ← Endian.bytes16_htons, UdpFlowV4]
  refine (accepts_ethertype (fun v => not_accepts_ret_zero rfl) fun v => not_accepts_ret_zero rfl).trans
    (and_congr_right fun _ => ?_)
  refine (accepts_check rfl rfl rfl fun v => not_accepts_ret_zero rfl).trans (and_congr hproto ?_)
  refine (accepts_check rfl rfl rfl fun v => not_accepts_ret_zero rfl).trans (and_congr (p.load_word_iff _ _) ?_)
  refine (accepts_check rfl rfl rfl fun v => not_accepts_ret_zero rfl).trans (and_congr (p.load_word_iff _ _) ?_)
  exact accepts_fragment_ports _ _

theorem passes_sockAddrV4ConnectTAPBPF (dstip srcip : BitVec 32) (dstport srcport : BitVec 16) :
    Passes (sockAddrV4ConnectTAPBPF host dstip srcip dstport srcport) p ↔
      UdpFlowV4 (host.memory32 srcip) (host.memory32 dstip) (host.memory16 srcport) (host.memory16 dstport) p := by
  have hethertype : p.load .half 12 = some 0x00000800 ↔ p.Has 12 [0x08, 0x00] := p.load_half_iff 12 0x0800
  have hproto : p.load .byte 23 = some 0x00000011 ↔ p.Has 23 [17] := p.load_byte_iff 23 17
  simp only [← Endian.bytes32_htonl, ← Endian.bytes16_htons, UdpFlowV4]
  refine (accepts_check rfl rfl rfl fun v => not_accepts_ret_zero rfl).trans (and_congr hethertype ?_)
  -- the program asks for the protocol behind the addresses
  rw [and_left_comm (a := p.Has 23 [17])]
  refine (accepts_check rfl rfl rfl fun v => not_accepts_ret_zero rfl).trans (and_congr (p.load_word_iff _ _) ?_)
  rw [and_left_comm (a := p.Has 23 [17])]
  refine (accepts_check rfl rfl rfl fun v => not_accepts_ret_zero rfl).trans (and_congr (p.load_word_iff _ _) ?_)
  refine (accepts_check rfl rfl rfl fun v => not_accepts_ret_zero rfl).trans (and_congr hproto ?_)
  exact accepts_fragment_ports _ _

/-- Four words of an address, of which the first one is at `o`. The comparisons jump `jf` instructions past the last one. -/
theorem accepts_address (addr : In6Addr) (o : BitVec 32) (jf : BitVec 8) {rest : List SockFilter} {a x : BitVec 32}
    (ho : o.toNat + 12 < 2 ^ 32) (hjf : jf.toNat + 6 < 2 ^ 8) (hreject : ∀ v, ¬ Accepts p (rest.drop jf.toNat) v x) :
    Accepts p (
      ⟨0x20, 0, 0, o⟩ :: ⟨0x15, 0, jf + 6, host.htonl addr.word0⟩ ::
      ⟨0x20, 0, 0, o + 4⟩ :: ⟨0x15, 0, jf + 4, host.htonl addr.word1⟩ ::
      ⟨0x20, 0, 0, o + 8⟩ :: ⟨0x15, 0, jf + 2, host.htonl addr.word2⟩ ::
      ⟨0x20, 0, 0, o + 12⟩ :: ⟨0x15, 0, jf, host.htonl addr.word3⟩ :: rest) a x ↔
    p.Has o.toNat (addr.memory host) ∧ Accepts p rest (host.htonl addr.word3) x := by
  have hoffset : ∀ n < 13, (o + BitVec.ofNat 32 n).toNat = o.toNat + n := by
    intro n hn
    rw [BitVec.toNat_add, BitVec.toNat_ofNat]
    omega
  have hjump : ∀ n < 7, (jf + BitVec.ofNat 8 n).toNat = jf.toNat + n := by
    intro n hn
    rw [BitVec.toNat_add, BitVec.toNat_ofNat]
    omega
  rw [accepts_check rfl rfl rfl, accepts_check rfl rfl rfl, accepts_check rfl rfl rfl, accepts_check rfl rfl rfl,
    In6Addr.memory, Packet.has_append, Packet.has_append, Packet.has_append]
  · simp only [List.length_append, ← Endian.bytes32_htonl, ← Packet.load_word_iff, and_assoc]
    rw [show (o + 4).toNat = o.toNat + 4 from hoffset 4 (by decide),
      show (o + 8).toNat = o.toNat + 8 from hoffset 8 (by decide),
      show (o + 12).toNat = o.toNat + 12 from hoffset 12 (by decide)]
    exact Iff.rfl
  · exact hreject
  · rw [show (jf + 2).toNat = jf.toNat + 2 from hjump 2 (by decide)]
    exact hreject
  · rw [show (jf + 4).toNat = jf.toNat + 4 from hjump 4 (by decide)]
    exact hreject
  · rw [show (jf + 6).toNat = jf.toNat + 6 from hjump 6 (by decide)]
    exact hreject

/-- The comparisons of the ports behind an IPv6 header, which ask for the next header once more. -/
theorem accepts_next_ports (srcport dstport : BitVec 16) {a x : BitVec 32} :
    Accepts p [
      ⟨0x30, 0, 0, 0x00000014⟩,
      ⟨0x15, 2, 0, 0x00000084⟩,
      ⟨0x15, 1, 0, 0x00000006⟩,
      ⟨0x15, 0, 5, 0x00000011⟩,
      ⟨0x28, 0, 0, 0x00000036⟩,
      ⟨0x15, 0, 3, srcport.setWidth 32⟩,
      ⟨0x28, 0, 0, 0x00000038⟩,
      ⟨0x15, 0, 1, dstport.setWidth 32⟩,
      ⟨0x6, 0, 0, 0x00040000⟩,
      ⟨0x6, 0, 0, 0x00000000⟩] a x ↔
    ∃ next, p.load .byte 20 = some next ∧ (next = 0x84 ∨ next = 0x06 ∨ next = 0x11) ∧
      p.Has 54 (bytes16 srcport ++ bytes16 dstport) := by
  have hports : ∀ v, Accepts p [
      ⟨0x28, 0, 0, 0x00000036⟩,
      ⟨0x15, 0, 3, srcport.setWidth 32⟩,
      ⟨0x28, 0, 0, 0x00000038⟩,
      ⟨0x15, 0, 1, dstport.setWidth 32⟩,
      ⟨0x6, 0, 0, 0x00040000⟩,
      ⟨0x6, 0, 0, 0x00000000⟩] v x ↔ p.Has 54 (bytes16 srcport ++ bytes16 dstport) := by
    intro v
    rw [Packet.has_append]
    refine (accepts_check rfl rfl rfl fun v => not_accepts_ret_zero rfl).trans (and_congr (p.load_half_iff _ _) ?_)
    refine (accepts_check rfl rfl rfl fun v => not_accepts_ret_zero rfl).trans ?_
    rw [accepts_ret rfl]
    exact (and_iff_left (by decide)).trans (p.load_half_iff _ dstport)
  rw [accepts_ld rfl]
  refine exists_congr fun next => and_congr_right fun _ => ?_
  rw [accepts_jeq rfl]
  by_cases hsctp : next = 0x84
  · rw [if_pos hsctp]
    exact (hports next).trans (and_iff_right (.inl hsctp)).symm
  rw [if_neg hsctp]
  refine (accepts_jeq rfl).trans ?_
  by_cases htcp : next = 0x06
  · rw [if_pos htcp]
    exact (hports next).trans (and_iff_right (.inr (.inl htcp))).symm
  rw [if_neg htcp]
  refine (accepts_when rfl rfl (not_accepts_ret_zero rfl)).trans ?_
  rw [or_iff_right hsctp, or_iff_right htcp]
  exact and_congr_right fun _ => hports _

/-- The first look at the next header: UDP, or a fragment header with UDP behind it. -/
theorem accepts_next {rest : List SockFilter} {P : Prop} {a x : BitVec 32} (hrest : ∀ v, Accepts p rest v x ↔ P)
    (hreject : ∀ v, ¬ Accepts p (rest.drop 25) v x) :
    Accepts p (
      ⟨0x30, 0, 0, 0x00000014⟩ ::
      ⟨0x15, 3, 0, 0x00000011⟩ ::
      ⟨0x15, 0, 27, 0x0000002c⟩ ::
      ⟨0x30, 0, 0, 0x00000036⟩ ::
      ⟨0x15, 0, 25, 0x00000011⟩ :: rest) a x ↔
    ∃ next, p.load .byte 20 = some next ∧ (next = 0x11 ∨ next = 0x2c ∧ p.load .byte 54 = some 0x11) ∧ P := by
  rw [accepts_ld rfl]
  refine exists_congr fun next => and_congr_right fun _ => ?_
  rw [accepts_jeq rfl]
  by_cases hudp : next = 0x11
  · rw [if_pos hudp]
    exact (hrest next).trans (and_iff_right (.inl hudp)).symm
  · rw [if_neg hudp, or_iff_right hudp, and_assoc]
    refine (accepts_when rfl rfl (hreject next)).trans (and_congr_right fun _ => ?_)
    exact (accepts_check rfl rfl rfl hreject).trans (and_congr_right fun _ => hrest _)

theorem passes_sockAddrV6ConnectBPF (dst src : In6Addr) (dstport srcport : BitVec 16) :
    Passes (sockAddrV6ConnectBPF host dst src dstport srcport) p ↔
      UdpFlowV6 (src.memory host) (dst.memory host) (host.memory16 srcport) (host.memory16 dstport) p := by
  have hethertype : p.load .half 12 = some 0x000086dd ↔ p.Has 12 [0x86, 0xdd] := p.load_half_iff 12 0x86dd
  have hnext : p.load .byte 20 = some 0x00000011 ↔ p.Has 20 [17] := p.load_byte_iff 20 17
  simp only [← Endian.bytes16_htons, UdpFlowV6]
  refine (accepts_check rfl rfl rfl fun v => not_accepts_ret_zero rfl).trans (and_congr hethertype ?_)
  have hbody : ∀ v, Accepts p ((sockAddrV6ConnectBPF host dst src dstport srcport).drop 7) v 0 ↔
      p.Has 22 (src.memory host) ∧ p.Has 38 (dst.memory host) ∧
        ∃ next, p.load .byte 20 = some next ∧ (next = 0x84 ∨ next = 0x06 ∨ next = 0x11) ∧
          p.Has 54 (bytes16 (host.htons srcport) ++ bytes16 (host.htons dstport)) := by
    intro v
    refine (accepts_address host p src 0x16 17 (by decide) (by decide) fun v => not_accepts_ret_zero rfl).trans
      (and_congr_right fun _ => ?_)
    refine (accepts_address host p dst 0x26 9 (by decide) (by decide) fun v => not_accepts_ret_zero rfl).trans
      (and_congr_right fun _ => ?_)
    exact accepts_next_ports p _ _
  refine (accepts_next p hbody fun v => not_accepts_ret_zero rfl).trans ?_
  rw [← hnext]
  constructor
  · rintro ⟨next, hload, hfirst, hsrc, hdst, next', hload', hsecond, hports⟩
    obtain rfl : next = next' := Option.some.inj (hload.symm.trans hload')
    rcases hfirst with rfl | ⟨rfl, -⟩
    · exact ⟨hload, hsrc, hdst, hports⟩
    · -- the second look still finds the fragment header
      exact absurd hsecond (by decide)
  · rintro ⟨hload, hsrc, hdst, hports⟩
    exact ⟨_, hload, .inl rfl, hsrc, hdst, _, hload, .inr (.inr rfl), hports⟩

/-- **The connected filters.** On a host of either byte order each filter passes just the frames of its flow. -/
theorem connected_filters :
    (∀ dstip srcip dstport srcport,
      (Passes (sockAddrV4ConnectBPF host dstip srcip dstport srcport) p ↔
        UdpFlowV4 (host.memory32 srcip) (host.memory32 dstip) (host.memory16 srcport) (host.memory16 dstport) p) ∧
      (Passes (sockAddrV4ConnectTAPBPF host dstip srcip dstport srcport) p ↔
        UdpFlowV4 (host.memory32 srcip) (host.memory32 dstip) (host.memory16 srcport) (host.memory16 dstport) p)) ∧
    ∀ dst src dstport srcport, Passes (sockAddrV6ConnectBPF host dst src dstport srcport) p ↔
      UdpFlowV6 (src.memory host) (dst.memory host) (host.memory16 srcport) (host.memory16 dstport) p :=
  ⟨fun dstip srcip dstport srcport =>
      ⟨passes_sockAddrV4ConnectBPF host p dstip srcip dstport srcport,
        passes_sockAddrV4ConnectTAPBPF host p dstip srcip dstport srcport⟩,
    passes_sockAddrV6ConnectBPF host p⟩

end

end Iperf2.Traffic
