import Iperf2.Traffic.Filter

/-!
# The quintuple check of a server

`Server::L2_quintuple_filter` looks at a captured frame whose checks failed: it returns zero if addresses and ports are
those of the flow, and -1 if not. The words of the frame are compared with those of the `sockaddr` structures as they
stand in memory.

* `IsFrameOf` : a frame is one of the flow;
* `l2QuintupleFilter_ipv4`, `l2QuintupleFilter_ipv6`, `l2QuintupleFilter_mapped` : the frames that the check finds;
* `quintuple_right_iff` : with IPv4 addresses in IPv6 structures it looks for frames from the peer to the peer.
-/

namespace Iperf2.Traffic

/-! ## Flows -/

/-- `struct sockaddr_in` -/
structure SockAddrIn where
  sinAddr : BitVec 32
  sinPort : BitVec 16

/-- `struct sockaddr_in6` -/
structure SockAddrIn6 where
  sin6Addr : In6Addr
  sin6Port : BitVec 16

/-- `struct sockaddr`, by its `sa_family`. -/
inductive SockAddr
  | inet (sin : SockAddrIn)
  | inet6 (sin6 : SockAddrIn6)

/-- The fields of `thread_Settings` that the check reads, the captured frame in `mBuf`. -/
structure L2Settings where
  isIPV6 : Bool
  peer : SockAddr
  localAddr : SockAddr
  mBuf : Buf
  l4offset : Nat

/-! ## The check -/

/-- `s6_addr32` -/
def In6Addr.words (addr : In6Addr) : List (BitVec 32) := [addr.word0, addr.word1, addr.word2, addr.word3]

/-- The loop that compares words with `*data++`. -/
def sameWords (host : Endian) (mBuf : Buf) : List (BitVec 32) → Nat → Bool
  | [], _ => true
  | word :: words, data => word == host.load32 mBuf data && sameWords host mBuf words (data + 4)

/-- `Server::L2_quintuple_filter` -/
def l2QuintupleFilter (host : Endian) (s : L2Settings) : Int :=
  let etherType := host.htons (host.load16 s.mBuf 12)
  let source := host.load16 s.mBuf s.l4offset
  let dest := host.load16 s.mBuf (s.l4offset + 2)
  let word := host.load32 s.mBuf
  match s.localAddr, s.peer with
  | .inet l, .inet p =>
    -- check the L2 ethertype
    if etherType ≠ (if s.isIPV6 then 0x86dd else 0x0800) then -1
    -- check plain old v4 using v4 addr structs
    else if p.sinAddr ≠ word 26 then -1
    else if l.sinAddr ≠ word 30 then -1
    else if source ≠ p.sinPort then -1
    else if dest ≠ l.sinPort then -1
    else 0
  | .inet6 l, .inet6 p =>
    if etherType ≠ (if s.isIPV6 then 0x86dd else 0x0800) then -1
    else
      let differ :=
        if s.isIPV6 then
          -- check for v6 src/dst address match
          !sameWords host s.mBuf p.sin6Addr.words 22 || !sameWords host s.mBuf l.sin6Addr.words 38
        else
          -- v4 addr in v6 family struct
          p.sin6Addr.word3 != word 26 || p.sin6Addr.word3 != word 30
      if differ then -1
      else if source ≠ p.sin6Port then -1
      else if dest ≠ l.sin6Port then -1
      else 0
  -- make sure sa_family is coherent for both src and dst
  | _, _ => -1

/-! ## Frames of a flow -/

/-- The addresses of a connected flow: IPv4, IPv6, and IPv4 in IPv6 structures. -/
inductive Connected
  | ipv4 (peer localAddr : SockAddrIn)
  | ipv6 (peer localAddr : SockAddrIn6)
  | mapped (peer localAddr : SockAddrIn6)

def Connected.settings (mBuf : Buf) (l4offset : Nat) : Connected → L2Settings
  | .ipv4 peer localAddr => ⟨false, .inet peer, .inet localAddr, mBuf, l4offset⟩
  | .ipv6 peer localAddr => ⟨true, .inet6 peer, .inet6 localAddr, mBuf, l4offset⟩
  | .mapped peer localAddr => ⟨false, .inet6 peer, .inet6 localAddr, mBuf, l4offset⟩

/-- A frame by its fields: its type, its addresses from `o` on, its ports. -/
structure Fields (mBuf : Buf) (l4offset o : Nat) (type src dst srcport dstport : List Byte) : Prop where
  etherType : mBuf.window 12 2 = type
  srcAddr : mBuf.window o src.length = src
  dstAddr : mBuf.window (o + src.length) dst.length = dst
  source : mBuf.window l4offset 2 = srcport
  dest : mBuf.window (l4offset + 2) 2 = dstport

/-- A frame from the peer to the local address of a flow. -/
def IsFrameOf (host : Endian) (mBuf : Buf) (l4offset : Nat) : Connected → Prop
  | .ipv4 peer localAddr =>
    Fields mBuf l4offset 26 [0x08, 0x00] (host.memory32 peer.sinAddr) (host.memory32 localAddr.sinAddr)
      (host.memory16 peer.sinPort) (host.memory16 localAddr.sinPort)
  | .ipv6 peer localAddr =>
    Fields mBuf l4offset 22 [0x86, 0xdd] (peer.sin6Addr.memory host) (localAddr.sin6Addr.memory host)
      (host.memory16 peer.sin6Port) (host.memory16 localAddr.sin6Port)
  | .mapped peer localAddr =>
    Fields mBuf l4offset 26 [0x08, 0x00] (host.memory32 peer.sin6Addr.word3) (host.memory32 localAddr.sin6Addr.word3)
      (host.memory16 peer.sin6Port) (host.memory16 localAddr.sin6Port)

/-! ## What the check finds -/

section
variable {host : Endian} {mBuf : Buf} {l4offset : Nat}

theorem refuse_iff {c : Prop} [Decidable c] {rc : Int} : (if c then -1 else rc) = 0 ↔ ¬ c ∧ rc = 0 := by
  by_cases hc : c
  · rw [if_pos hc]
    exact iff_of_false (by decide) fun h => h.1 hc
  · rw [if_neg hc]
    exact (and_iff_right hc).symm

theorem sameWords_iff (words : List (BitVec 32)) (data : Nat) :
    sameWords host mBuf words data = true ↔
      mBuf.window data (words.flatMap host.memory32).length = words.flatMap host.memory32 := by
  induction words generalizing data with
  | nil => exact iff_of_true rfl rfl
  | cons word words ih =>
    rw [sameWords, Bool.and_eq_true, beq_iff_eq, ih, List.flatMap_cons, List.length_append, Endian.memory32_length,
      Buf.window_append, ← Endian.memory32_load32 host]
    constructor
    · rintro ⟨rfl, hrest⟩
      rw [hrest]
    · intro h
      obtain ⟨hword, hrest⟩ := List.append_inj h (by rw [Endian.memory32_length, Endian.memory32_length])
      exact ⟨Endian.memory32_inj.mp hword.symm, hrest⟩

theorem load32_eq_iff (v : BitVec 32) (o : Nat) :
    v = host.load32 mBuf o ↔ mBuf.window o (host.memory32 v).length = host.memory32 v := by
  rw [Endian.memory32_length, ← Endian.memory32_load32 host, Endian.memory32_inj, eq_comm]

theorem load16_eq_iff (v : BitVec 16) (o : Nat) : host.load16 mBuf o = v ↔ mBuf.window o 2 = host.memory16 v := by
  rw [← Endian.memory16_load16 host, Endian.memory16_inj]

theorem etherType_iff (v : BitVec 16) :
    host.htons (host.load16 mBuf 12) = v ↔ mBuf.window 12 2 = bytes16 v := by
  rw [Endian.htons_load16, mBuf.window_two, bytes16_inj]

/-- Two words from offset 26 on are the addresses of an IPv4 header. -/
theorem fields_v4_iff {type srcport dstport : List Byte} (src dst : BitVec 32) :
    Fields mBuf l4offset 26 type (host.memory32 src) (host.memory32 dst) srcport dstport ↔
      mBuf.window 12 2 = type ∧ src = host.load32 mBuf 26 ∧ dst = host.load32 mBuf 30 ∧
        mBuf.window l4offset 2 = srcport ∧ mBuf.window (l4offset + 2) 2 = dstport := by
  have hdst : dst = host.load32 mBuf 30 ↔
      mBuf.window (26 + (host.memory32 src).length) (host.memory32 dst).length = host.memory32 dst := by
    rw [load32_eq_iff, host.memory32_length src]
  constructor
  · intro h
    exact ⟨h.etherType, (load32_eq_iff _ _).mpr h.srcAddr, hdst.mpr h.dstAddr, h.source, h.dest⟩
  · rintro ⟨htype, hsrc, hsame, hsource, hdest⟩
    exact ⟨htype, (load32_eq_iff _ _).mp hsrc, hdst.mp hsame, hsource, hdest⟩

theorem memory_eq (addr : In6Addr) : addr.memory host = addr.words.flatMap host.memory32 := by
  simp only [In6Addr.memory, In6Addr.words, List.flatMap_cons, List.flatMap_nil, List.append_nil, List.append_assoc]

theorem memory_length (addr : In6Addr) : (addr.memory host).length = 16 := by
  simp only [In6Addr.memory, List.length_append, Endian.memory32_length]

theorem fields_v6_iff {type srcport dstport : List Byte} (src dst : In6Addr) :
    Fields mBuf l4offset 22 type (src.memory host) (dst.memory host) srcport dstport ↔
      mBuf.window 12 2 = type ∧ sameWords host mBuf src.words 22 = true ∧ sameWords host mBuf dst.words 38 = true ∧
        mBuf.window l4offset 2 = srcport ∧ mBuf.window (l4offset + 2) 2 = dstport := by
  have hsrc : sameWords host mBuf src.words 22 = true ↔
      mBuf.window 22 (src.memory host).length = src.memory host := by
    rw [sameWords_iff, ← memory_eq]
  have hdst : sameWords host mBuf dst.words 38 = true ↔
      mBuf.window (22 + (src.memory host).length) (dst.memory host).length = dst.memory host := by
    rw [sameWords_iff, ← memory_eq, memory_length src]
  constructor
  · intro h
    exact ⟨h.etherType, hsrc.mpr h.srcAddr, hdst.mpr h.dstAddr, h.source, h.dest⟩
  · rintro ⟨htype, hfrom, hto, hsource, hdest⟩
    exact ⟨htype, hsrc.mp hfrom, hdst.mp hto, hsource, hdest⟩

theorem l2QuintupleFilter_ipv4 (peer localAddr : SockAddrIn) :
    l2QuintupleFilter host ((Connected.ipv4 peer localAddr).settings mBuf l4offset) = 0 ↔
      IsFrameOf host mBuf l4offset (.ipv4 peer localAddr) := by
  rw [IsFrameOf, fields_v4_iff]
  simp only [l2QuintupleFilter, Connected.settings, refuse_iff, ne_eq, not_not, Bool.false_eq_true, if_false,
    etherType_iff, load16_eq_iff, and_true]
  rfl

theorem l2QuintupleFilter_ipv6 (peer localAddr : SockAddrIn6) :
    l2QuintupleFilter host ((Connected.ipv6 peer localAddr).settings mBuf l4offset) = 0 ↔
      IsFrameOf host mBuf l4offset (.ipv6 peer localAddr) := by
  rw [IsFrameOf, fields_v6_iff]
  simp only [l2QuintupleFilter, Connected.settings, refuse_iff, ne_eq, not_not, if_true, etherType_iff, load16_eq_iff,
    Bool.or_eq_true, Bool.not_eq_true', not_or, Bool.not_eq_false, and_true, and_assoc]
  rfl

/-- With IPv4 addresses in IPv6 structures the destination is compared with the peer once more. -/
theorem l2QuintupleFilter_mapped (peer localAddr : SockAddrIn6) :
    l2QuintupleFilter host ((Connected.mapped peer localAddr).settings mBuf l4offset) = 0 ↔
      Fields mBuf l4offset 26 [0x08, 0x00] (host.memory32 peer.sin6Addr.word3) (host.memory32 peer.sin6Addr.word3)
        (host.memory16 peer.sin6Port) (host.memory16 localAddr.sin6Port) := by
  rw [fields_v4_iff]
  simp only [l2QuintupleFilter, Connected.settings, refuse_iff, ne_eq, not_not, Bool.false_eq_true, if_false,
    etherType_iff, load16_eq_iff, Bool.or_eq_true, bne_iff_ne, not_or, and_true, and_assoc]
  rfl

/-- A frame that the check misreads: with IPv4 addresses in IPv6 structures, one from the peer with the ports of the
flow, to the peer itself or to the local address. -/
def Misread (host : Endian) (mBuf : Buf) (l4offset : Nat) : Connected → Prop
  | .mapped peer localAddr =>
    peer.sin6Addr.word3 ≠ localAddr.sin6Addr.word3 ∧
      ∃ dst, (dst = peer.sin6Addr.word3 ∨ dst = localAddr.sin6Addr.word3) ∧
        Fields mBuf l4offset 26 [0x08, 0x00] (host.memory32 peer.sin6Addr.word3) (host.memory32 dst)
          (host.memory16 peer.sin6Port) (host.memory16 localAddr.sin6Port)
  | _ => False

/-- The check finds the frames of the flow just if it does not misread one. -/
theorem quintuple_right_iff (host : Endian) (mBuf : Buf) (l4offset : Nat) (connected : Connected) :
    (l2QuintupleFilter host (connected.settings mBuf l4offset) = 0 ↔ IsFrameOf host mBuf l4offset connected) ↔
      ¬ Misread host mBuf l4offset connected := by
  cases connected with
  | ipv4 peer localAddr => exact iff_of_true (l2QuintupleFilter_ipv4 peer localAddr) not_false
  | ipv6 peer localAddr => exact iff_of_true (l2QuintupleFilter_ipv6 peer localAddr) not_false
  | mapped peer localAddr =>
    rw [l2QuintupleFilter_mapped, IsFrameOf, Misread]
    by_cases hsame : peer.sin6Addr.word3 = localAddr.sin6Addr.word3
    · rw [hsame]
      exact iff_of_true Iff.rfl fun h => h.1 rfl
    constructor
    · rintro hiff ⟨-, dst, rfl | rfl, hframe⟩
      -- one frame does not go to both
      · have hto := ((fields_v4_iff _ _).mp hframe).2.2.1
        exact hsame (hto.trans ((fields_v4_iff _ _).mp (hiff.mp hframe)).2.2.1.symm)
      · have hto := ((fields_v4_iff _ _).mp hframe).2.2.1
        exact hsame (((fields_v4_iff _ _).mp (hiff.mpr hframe)).2.2.1.trans hto.symm)
    · intro hread
      exact iff_of_false (fun h => hread ⟨hsame, _, .inl rfl, h⟩) fun h => hread ⟨hsame, _, .inr rfl, h⟩

end

/-- 10.0.0.2 port 5002 to 10.0.0.1 port 5001, in IPv6 structures of a little-endian host. -/
def mappedFlow : Connected :=
  .mapped ⟨⟨0, 0, 0xffff0000, 0x0200000a⟩, 0x8a13⟩ ⟨⟨0, 0, 0xffff0000, 0x0100000a⟩, 0x8913⟩

/-- A frame of that flow. -/
def mappedFrame : Buf :=
  let frame := Buf.zero.store 12 [0x08, 0x00]
  let frame := frame.store 26 [10, 0, 0, 2, 10, 0, 0, 1]
  frame.store 34 [0x13, 0x8a, 0x13, 0x89]

/-- The check refuses it. -/
theorem quintuple_misses : ¬ ∀ (host : Endian) (mBuf : Buf) (l4offset : Nat) (connected : Connected),
    l2QuintupleFilter host (connected.settings mBuf l4offset) = 0 ↔ IsFrameOf host mBuf l4offset connected := by
  intro hall
  have hframe : IsFrameOf .little mappedFrame 34 mappedFlow :=
    ⟨by decide, by decide, by decide, by decide, by decide⟩
  exact absurd ((hall .little mappedFrame 34 mappedFlow).mpr hframe) (by decide)

end Iperf2.Traffic
