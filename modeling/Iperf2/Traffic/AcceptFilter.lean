import Iperf2.Traffic.Filter

/-!
# The packet filters of a listener

`SockAddr_v4_Accept_BPF` and `SockAddr_Accept_V4_TAP_BPF` are for a raw socket that takes the first packets of flows
that are not known yet: UDP over IPv4 to a port, and to an address and a port. The second one puts its address into the
instruction that accepts, so that the comparison is with the address of the template.

* `UdpToPort`, `UdpTo` : the frames to a port, and to an address and a port;
* `passes_sockAddrV4AcceptBPF` : the first filter passes the frames to its port;
* `passes_sockAddrAcceptV4TAPBPF` : the second one passes frames to 0.0.0.0;
* `accept_filters` : so it is right only about frames to neither address.
-/

namespace Iperf2.Traffic
open Bpf

/-! ## The filters -/

def sockAddrV4AcceptBPF (port : BitVec 16) : List SockFilter :=
  let udpFilter : List SockFilter := [
    ⟨0x28, 0, 0, 0x0000000c⟩,
    ⟨0x15, 0, 8, 0x00000800⟩,
    ⟨0x30, 0, 0, 0x00000017⟩,
    ⟨0x15, 0, 6, 0x00000011⟩,
    ⟨0x28, 0, 0, 0x00000014⟩,
    ⟨0x45, 4, 0, 0x00001fff⟩,
    ⟨0xb1, 0, 0, 0x0000000e⟩,
    ⟨0x48, 0, 0, 0x00000010⟩,
    ⟨0x15, 0, 1, 0x00001389⟩,
    ⟨0x6, 0, 0, 0x00040000⟩,
    ⟨0x6, 0, 0, 0x00000000⟩]
  patch udpFilter 8 (port.setWidth 32)

def sockAddrAcceptV4TAPBPF (host : Endian) (dstip : BitVec 32) (port : BitVec 16) : List SockFilter :=
  let udpFilter : List SockFilter := [
    ⟨0x28, 0, 0, 0x0000000c⟩,
    ⟨0x15, 11, 0, 0x000086dd⟩,
    ⟨0x15, 0, 10, 0x00000800⟩,
    ⟨0x30, 0, 0, 0x00000017⟩,
    ⟨0x15, 0, 8, 0x00000011⟩,
    ⟨0x28, 0, 0, 0x00000014⟩,
    ⟨0x45, 6, 0, 0x00001fff⟩,
    ⟨0xb1, 0, 0, 0x0000000e⟩,
    ⟨0x48, 0, 0, 0x00000010⟩,
    ⟨0x15, 0, 3, 0x00001389⟩,
    ⟨0x20, 0, 0, 0x0000001e⟩,
    ⟨0x15, 0, 1, 0x00000000⟩,
    ⟨0x6, 0, 0, 0x00040000⟩,
    ⟨0x6, 0, 0, 0x00000000⟩]
  let udpFilter := patch udpFilter 12 (host.htonl dstip)
  patch udpFilter 9 ((host.htons port).setWidth 32)

/-! ## Frames to a port -/

/-- An Ethernet frame with the first or only fragment of an IPv4 packet that carries UDP to a port. The header has the
length that its first byte says. -/
def UdpToPort (dstport : List Byte) (p : Packet) : Prop :=
  p.Has 12 [0x08, 0x00] ∧ p.Has 23 [17] ∧ (∃ fragment, p.Has 20 (bytes16 fragment) ∧ fragment &&& 0x1fff = 0) ∧
    ∃ versionIhl, p.Has 14 [versionIhl] ∧ p.Has (16 + 4 * (versionIhl.toNat % 16)) dstport

/-- The same, to an address. -/
def UdpTo (dst dstport : List Byte) (p : Packet) : Prop := UdpToPort dstport p ∧ p.Has 30 dst

section
variable {p : Packet} {a x : BitVec 32}

/-- Both filters from the fragment offset on, with what follows the comparison of the port. -/
theorem accepts_udp_port {jt jf : BitVec 8} {rest : List SockFilter} {P : Prop} (dstport : BitVec 16)
    (hfragment : ∀ v, ¬ Accepts p (List.drop jt.toNat
      (⟨0xb1, 0, 0, 0x0000000e⟩ :: ⟨0x48, 0, 0, 0x00000010⟩ :: ⟨0x15, 0, jf, dstport.setWidth 32⟩ :: rest)) v x)
    (hport : ∀ v x, ¬ Accepts p (rest.drop jf.toNat) v x) (hrest : ∀ v x, Accepts p rest v x ↔ P) :
    Accepts p (⟨0x28, 0, 0, 0x00000014⟩ :: ⟨0x45, jt, 0, 0x00001fff⟩ :: ⟨0xb1, 0, 0, 0x0000000e⟩ ::
      ⟨0x48, 0, 0, 0x00000010⟩ :: ⟨0x15, 0, jf, dstport.setWidth 32⟩ :: rest) a x ↔
    ((∃ fragment, p.Has 20 (bytes16 fragment) ∧ fragment &&& 0x1fff = 0) ∧
      ∃ versionIhl, p.Has 14 [versionIhl] ∧ p.Has (16 + 4 * (versionIhl.toNat % 16)) (bytes16 dstport)) ∧ P := by
  have hlast : (∃ versionIhl, p.Has 14 [versionIhl] ∧
        p.Has (16 + 4 * (versionIhl.toNat % 16)) (bytes16 dstport)) ∧ P ↔
      ∃ versionIhl, p.Has 14 [versionIhl] ∧ p.Has (16 + 4 * (versionIhl.toNat % 16)) (bytes16 dstport) ∧ P := by
    simp only [← exists_and_right, and_assoc]
  rw [and_assoc, hlast]
  apply accepts_fragment hfragment
  intro v versionIhl
  refine (accepts_checkInd rfl rfl rfl fun v => hport v _).trans (and_congr ?_ (hrest _ _))
  rw [msh_toNat _ _ (by decide)]
  exact p.load_half_iff _ dstport

/-- The filter of a listener on a tap device. -/
theorem passes_sockAddrV4AcceptBPF (p : Packet) (port : BitVec 16) :
    Passes (sockAddrV4AcceptBPF port) p ↔ UdpToPort (bytes16 port) p := by
  have hethertype : p.load .half 12 = some 0x00000800 ↔ p.Has 12 [0x08, 0x00] := p.load_half_iff 12 0x0800
  have hproto : p.load .byte 23 = some 0x00000011 ↔ p.Has 23 [17] := p.load_byte_iff 23 17
  have hret : ∀ v x, Accepts p [⟨0x6, 0, 0, 0x00040000⟩, ⟨0x6, 0, 0, 0x00000000⟩] v x ↔ True := by
    intro v x
    rw [accepts_ret rfl]
    exact iff_true_intro (by decide : (0x00040000 : BitVec 32) ≠ 0)
  refine (accepts_check rfl rfl rfl fun v => not_accepts_ret_zero rfl).trans (and_congr hethertype ?_)
  refine (accepts_check rfl rfl rfl fun v => not_accepts_ret_zero rfl).trans (and_congr hproto ?_)
  refine (accepts_udp_port port (fun v => not_accepts_ret_zero rfl) (fun v x => not_accepts_ret_zero rfl) hret).trans ?_
  exact and_iff_left trivial

/-- The filter for an address compares with 0.0.0.0, and accepts nothing if it is given that. -/
theorem passes_sockAddrAcceptV4TAPBPF (host : Endian) (p : Packet) (dstip : BitVec 32) (port : BitVec 16) :
    Passes (sockAddrAcceptV4TAPBPF host dstip port) p ↔
      UdpTo [0, 0, 0, 0] (host.memory16 port) p ∧ dstip ≠ 0 := by
  have hproto : p.load .byte 23 = some 0x00000011 ↔ p.Has 23 [17] := p.load_byte_iff 23 17
  have hzero : host.htonl dstip ≠ 0 ↔ dstip ≠ 0 := by
    have hbytes : bytes32 0 = host.memory32 0 := by cases host <;> rfl
    rw [ne_eq, ne_eq, ← bytes32_inj, Endian.bytes32_htonl, hbytes, Endian.memory32_inj]
  have hret : ∀ v x, Accepts p [⟨0x20, 0, 0, 0x0000001e⟩, ⟨0x15, 0, 1, 0x00000000⟩, ⟨0x6, 0, 0, host.htonl dstip⟩,
      ⟨0x6, 0, 0, 0x00000000⟩] v x ↔ p.Has 30 [0, 0, 0, 0] ∧ dstip ≠ 0 := by
    intro v x
    refine (accepts_check rfl rfl rfl fun v => not_accepts_ret_zero rfl).trans (and_congr (p.load_word_iff 30 0) ?_)
    rw [accepts_ret rfl]
    exact hzero
  rw [← Endian.bytes16_htons, UdpTo, UdpToPort, and_assoc, and_assoc, and_assoc]
  refine (accepts_ethertype (fun v => not_accepts_ret_zero rfl) fun v => not_accepts_ret_zero rfl).trans
    (and_congr_right fun _ => ?_)
  refine (accepts_check rfl rfl rfl fun v => not_accepts_ret_zero rfl).trans (and_congr hproto ?_)
  exact accepts_udp_port (host.htons port) (fun v => not_accepts_ret_zero rfl) (fun v x => not_accepts_ret_zero rfl) hret

end

/-- A frame goes to one address. -/
theorem UdpTo.unique {dst dst' dstport : List Byte} {p : Packet} (h : UdpTo dst dstport p) (h' : UdpTo dst' dstport p)
    (hlength : dst.length = dst'.length) : dst = dst' := by
  rw [← h.2.2, ← h'.2.2, hlength]

/-- On a host of either byte order the filter for a port is right, and the one for an address and a port is right just
about the frames that go neither to the address nor to 0.0.0.0. -/
theorem accept_filters (host : Endian) (p : Packet) (port : BitVec 16) (dstip : BitVec 32) (dstport : BitVec 16) :
    (Passes (sockAddrV4AcceptBPF port) p ↔ UdpToPort (bytes16 port) p) ∧
      ((Passes (sockAddrAcceptV4TAPBPF host dstip dstport) p ↔
          UdpTo (host.memory32 dstip) (host.memory16 dstport) p) ↔
        ¬ UdpTo (host.memory32 dstip) (host.memory16 dstport) p ∧
          ¬ UdpTo [0, 0, 0, 0] (host.memory16 dstport) p) := by
  refine ⟨passes_sockAddrV4AcceptBPF p port, ?_⟩
  rw [passes_sockAddrAcceptV4TAPBPF]
  have hbytes : [0, 0, 0, 0] = host.memory32 0 := by cases host <;> rfl
  constructor
  · intro hright
    have hnot : ¬ UdpTo (host.memory32 dstip) (host.memory16 dstport) p := by
      intro hto
      obtain ⟨hzero, hne⟩ := hright.mpr hto
      have hsame := hto.unique hzero (Endian.memory32_length ..)
      rw [hbytes, Endian.memory32_inj] at hsame
      exact hne hsame
    refine ⟨hnot, fun hzero => ?_⟩
    by_cases hne : dstip = 0
    · rw [hne, ← hbytes] at hnot
      exact hnot hzero
    · exact hnot (hright.mp ⟨hzero, hne⟩)
  · rintro ⟨hto, hzero⟩
    exact iff_of_false (fun h => hzero h.1) hto

/-- A frame to 10.0.0.1 port 5001. -/
def acceptFrame : Packet where
  bytes :=
    let frame := Buf.zero.store 12 [0x08, 0x00, 0x45]
    let frame := frame.store 23 [17]
    let frame := frame.store 30 [10, 0, 0, 1]
    frame.store 36 [0x13, 0x89]
  len := 60

/-- The filter for its address and port drops it. -/
theorem accept_filters_drop : ¬ ∀ (host : Endian) (p : Packet) (port : BitVec 16) (dstip : BitVec 32)
    (dstport : BitVec 16), (Passes (sockAddrV4AcceptBPF port) p ↔ UdpToPort (bytes16 port) p) ∧
      (Passes (sockAddrAcceptV4TAPBPF host dstip dstport) p ↔
        UdpTo (host.memory32 dstip) (host.memory16 dstport) p) := by
  intro hall
  have hport : UdpToPort [0x13, 0x89] acceptFrame :=
    ⟨⟨by decide, by decide⟩, ⟨by decide, by decide⟩, ⟨0, ⟨by decide, by decide⟩, by decide⟩,
      0x45, ⟨by decide, by decide⟩, ⟨by decide, by decide⟩⟩
  have hto : UdpTo [10, 0, 0, 1] [0x13, 0x89] acceptFrame := ⟨hport, by decide, by decide⟩
  exact absurd ((hall .big acceptFrame 5001 0x0a000001 5001).2.mpr hto) (by decide)

end Iperf2.Traffic
