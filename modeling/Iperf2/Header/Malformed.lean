import Iperf2.Header.Reads

/-!
# Malformed headers

A peer chooses the flags, the declared length and the number of bytes it sends. The listener reads the fields that the
flags license, whether they arrived or not, from a buffer that may hold bytes of an earlier exchange.

* `tcp_licensed`, `udp_licensed` : the settings are independent of these bytes if and only if all licensed fields
  arrived;
* `tcp_independent`, `tcp_stored` : the same for a connection with its key check, and what it stores;
* `malformed_header_safety` : together, for both protocols.
-/

namespace Iperf2.Header
open Report Decoder

/-! ## What is made of a header -/

/-- `Listener::Run` goes on to read the settings of a client. -/
def readsClientSettings (server : ThreadSettings) : Bool :=
  server.isFullDuplex || server.isServerReverse || server.mMode != .normal

/-- The settings of a server, and those that `Settings_ReadClientSettingsV1` makes for the client it starts. -/
def madeSettings (base : Nat) (server : ThreadSettings) (mBuf : Buf) : ThreadSettings × Option ThreadSettings :=
  (server,
    if readsClientSettings server then
      some ((settingsReadClientSettingsV1 base (reversedThread (mBuf.be32 base) server)).run mBuf)
    else none)

/-- What is left of a connection: its verdict, and the settings if it is accepted. -/
def outcome (r : Verdict × Exchange) : Verdict × Option (ThreadSettings × Option ThreadSettings) :=
  (r.1, if r.1 = .accept then some (madeSettings 0 r.2.server r.2.mBuf) else none)

/-- `udp_accept`: a datagram is cut to the length of the buffer; a negative length is a huge `size_t`. -/
def udpAccept (listener : ThreadSettings) (datagram : List Byte) : List Byte :=
  if listener.mBufLen < 0 then datagram else datagram.take listener.mBufLen.toNat

/-- The settings that are made of a first datagram. -/
def udpOutcome (listener : ThreadSettings) (now : Int) (datagram : List Byte) (mBuf : Buf) :
    ThreadSettings × Option ThreadSettings :=
  let bytes := udpAccept listener datagram
  let mBuf := mBuf.store 0 bytes
  madeSettings 16 ((applyClientSettingsUdp now { newServer listener with firstreadbytes := bytes.length }).run mBuf) mBuf

/-- The previous content of the buffer does not show. -/
def Independent {β : Type} (run : Buf → β) : Prop := ∀ mBuf mBuf', run mBuf = run mBuf'

theorem madeSettings_congr {n base : Nat} {server : ThreadSettings} {b b' : Buf} (hagree : Agree n b b')
    (hread : readsClientSettings server = true → base + 24 ≤ n) :
    madeSettings base server b = madeSettings base server b' := by
  unfold madeSettings
  by_cases hreads : readsClientSettings server = true
  · have hn := hread hreads
    have hrun := run_congr ((covered_settingsReadClientSettingsV1 n b (reversedThread (b.be32 base) server) base).mpr hn)
      hagree
    rw [if_pos hreads, if_pos hreads, hrun, hagree.be32 (by omega : base + 4 ≤ n)]
  · rw [if_neg hreads, if_neg hreads]

/-- A server without the full duplex and reverse flags starts a client for `-d` and `-r` only. -/
theorem readsClientSettings_applyV1 {flags : BitVec 32} {server : ThreadSettings}
    (h : serverMode server = ⟨if v1test flags then v1Mode flags else .normal, false, false, .server⟩) :
    readsClientSettings server = v1test flags := by
  obtain ⟨hmode, hfull, hreverse, -⟩ := ServerMode.mk.inj h
  unfold readsClientSettings
  rw [hfull, hreverse, hmode]
  cases v1test flags
  · rfl
  · rw [if_pos rfl, v1Mode]
    cases Flags.test flags RUN_NOW <;> rfl

theorem readsClientSettings_normal {server : ThreadSettings} (h : serverMode server = Mode.normal.server) :
    readsClientSettings server = false := by
  obtain ⟨hmode, hfull, hreverse, -⟩ := ServerMode.mk.inj h
  unfold readsClientSettings
  rw [hmode, hfull, hreverse]
  rfl

/-- The sign of a time does not hide the last bit of the amount. -/
theorem settingsReadClientSettingsV1_amount (base : Nat) (client : ThreadSettings) (b : Buf) :
    ((settingsReadClientSettingsV1 base client).run b).mAmount.getLsbD 0 = (b.be32 (base + 20)).getLsbD 0 := by
  have hamount : ((settingsReadClientSettingsV1 base client).run b).mAmount =
      if b.be32 (base + 20) &&& 0x80000000 != 0 then -((b.be32 (base + 20)).setWidth 64 ||| 0xFFFFFFFF00000000)
      else (b.be32 (base + 20)).setWidth 64 := rfl
  rw [hamount]
  split
  · rw [BitVec.getLsbD_neg]
    simp
  · simp

theorem odd_of_getLsbD {w : BitVec 32} : w.getLsbD 0 = true ↔ w.toNat % 2 = 1 := by
  rw [BitVec.getLsbD, Nat.testBit_zero, decide_eq_true_iff]

/-- Nor does the default for a rate of zero hide its last bit. -/
theorem fixedPoint_ne {o : Nat} {b b' : Buf} (hl : b.be32 o = b'.be32 o) (hu : (b.be32 (o + 4)).getLsbD 0 = true)
    (hu' : (b'.be32 (o + 4)).getLsbD 0 = false) :
    (if (fixedPoint o).run b = 0 then 1 else (fixedPoint o).run b) ≠
      if (fixedPoint o).run b' = 0 then 1 else (fixedPoint o).run b' := by
  have hodd := odd_of_getLsbD.mp hu
  have heven : ¬ (b'.be32 (o + 4)).toNat % 2 = 1 := fun h => by
    rw [odd_of_getLsbD.mpr h] at hu'
    cases hu'
  have hrun (b : Buf) : (fixedPoint o).run b * 1000000 = ((b.be32 o).toNat * 1000000 + (b.be32 (o + 4)).toNat : Nat) := by
    show ((b.be32 o).toNat + (b.be32 (o + 4)).toNat / (rMillion : Rat)) * 1000000 = _
    rw [show (rMillion : Rat) = 1000000 from rfl, add_mul, div_mul_cancel₀ _ (by decide)]
    push_cast
    rfl
  have hfirst := hrun b
  have hsecond := hrun b'
  rw [hl] at hfirst
  generalize (b'.be32 o).toNat = l at hfirst hsecond
  split_ifs with hzero hzero' hzero'
  · rw [hzero, zero_mul] at hfirst
    have : l * 1000000 + (b.be32 (o + 4)).toNat = 0 := by exact_mod_cast hfirst.symm
    omega
  · rw [hzero, zero_mul] at hfirst
    have : l * 1000000 + (b.be32 (o + 4)).toNat = 0 := by exact_mod_cast hfirst.symm
    omega
  · intro hone
    rw [hone, one_mul] at hfirst
    have : l * 1000000 + (b.be32 (o + 4)).toNat = 1000000 := by exact_mod_cast hfirst.symm
    omega
  · intro heq
    rw [heq, hsecond] at hfirst
    have : l * 1000000 + (b'.be32 (o + 4)).toNat = l * 1000000 + (b.be32 (o + 4)).toNat := by exact_mod_cast hfirst
    omega

/-! ## A last byte that did not arrive -/

section
variable {bytes : List Byte}

/-- The last byte of a time shows. -/
theorem time_spot_ne {o : Nat} (h : bytes.length ≤ o + 7) :
    (⟨(((Buf.spot (o + 7) 1).store 0 bytes).be32 o).toNat,
        (((Buf.spot (o + 7) 1).store 0 bytes).be32 (o + 4)).toNat⟩ : Timeval) ≠
      ⟨((Buf.zero.store 0 bytes).be32 o).toNat, ((Buf.zero.store 0 bytes).be32 (o + 4)).toNat⟩ := by
  intro htime
  have husec := congrArg Timeval.usec htime
  exact Buf.be32_spot_ne h (by decide) rfl (BitVec.eq_of_toNat_eq (Int.ofNat.inj husec))

/-- So does that of the amount, in the settings for a client. -/
theorem madeSettings_spot_ne {base : Nat} {server server' : ThreadSettings} (h : bytes.length ≤ base + 23)
    (hreads : readsClientSettings server = true) (hreads' : readsClientSettings server' = true) :
    (madeSettings base server ((Buf.spot (base + 23) 1).store 0 bytes)).2 ≠
      (madeSettings base server' (Buf.zero.store 0 bytes)).2 := by
  intro hclient
  simp only [madeSettings] at hclient
  rw [if_pos hreads, if_pos hreads'] at hclient
  have hbit := congrArg (BitVec.getLsbD · 0) (congrArg ThreadSettings.mAmount (Option.some.inj hclient))
  simp only [settingsReadClientSettingsV1_amount] at hbit
  rw [Buf.be32_getLsbD _ _ (by decide), Buf.be32_getLsbD _ _ (by decide)] at hbit
  rw [show base + 20 + 3 = base + 23 from rfl, Buf.store_spot_self h, Buf.store_zero_of_le h] at hbit
  cases hbit

end

/-! ## TCP -/

/-- All fields that the flags of a TCP header license lie in its first `n` bytes. -/
structure TcpLicensed (build : Build) (flags : BitVec 32) (upperflags : BitVec 16) (server : ThreadSettings) (n : Nat) :
    Prop where
  v1 : v1test flags = true → 24 ≤ n
  extend : Flags.test flags HEADER_EXTEND = true → 48 ≤ n
  epochStart : Flags.test flags HEADER_EXTEND = true → Flags.test upperflags HEADER_EPOCH_START = true → 72 ≤ n
  tripTime : Flags.test flags HEADER_EXTEND = true → Flags.test upperflags HEADER_TRIPTIME = true → 72 ≤ n
  periodicBurst : Flags.test flags HEADER_EXTEND = true → Flags.test upperflags HEADER_PERIODICBURST = true → 88 ≤ n
  writePrefetch : Flags.test flags HEADER_EXTEND = true →
    prefetches build upperflags (appliedMode flags upperflags server) = true → 60 ≤ n

section
variable (build : Build) (flags : BitVec 32) (now : Int) {server : ThreadSettings}
  (hserver : serverMode server = Mode.normal.server) {bytes : List Byte}
include hserver

/-- A server whose header lacks `HEADER_EXTEND` starts a client for `-d` and `-r` only. -/
theorem readsClientSettings_v1 (hextend : Flags.test flags HEADER_EXTEND = false) (b : Buf) :
    readsClientSettings ((applyTcpHdr build flags now server).run b) = v1test flags := by
  have hrun : (applyTcpHdr build flags now server).run b = applyV1 flags server := by
    unfold applyTcpHdr
    rw [hextend]
    rfl
  rw [hrun]
  exact readsClientSettings_applyV1 (applyV1_mode hserver flags)

/-- If all licensed fields arrived, the settings do not depend on what was in the buffer. -/
theorem tcp_licensed_independent
    (h : TcpLicensed build flags ((Buf.zero.store 0 bytes).be16 32) server bytes.length) :
    Independent fun mBuf =>
      madeSettings 0 ((applyTcpHdr build flags now server).run (mBuf.store 0 bytes)) (mBuf.store 0 bytes) := by
  have hcovered : Covered bytes.length (applyTcpHdr build flags now server) (Buf.zero.store 0 bytes) :=
    (covered_applyTcpHdr ..).mpr fun hflag =>
      ⟨h.extend hflag, h.epochStart hflag, h.tripTime hflag, h.periodicBurst hflag, h.writePrefetch hflag⟩
  have hread : readsClientSettings ((applyTcpHdr build flags now server).run (Buf.zero.store 0 bytes)) = true →
      0 + 24 ≤ bytes.length := by
    intro hreads
    cases hflag : Flags.test flags HEADER_EXTEND
    · rw [readsClientSettings_v1 build flags now hserver hflag] at hreads
      have := h.v1 hreads
      omega
    · have := h.extend hflag
      omega
  have hzero (mBuf : Buf) :
      madeSettings 0 ((applyTcpHdr build flags now server).run (mBuf.store 0 bytes)) (mBuf.store 0 bytes) =
        madeSettings 0 ((applyTcpHdr build flags now server).run (Buf.zero.store 0 bytes))
          (Buf.zero.store 0 bytes) := by
    have hagree := Agree.store Buf.zero mBuf bytes
    rw [← run_congr hcovered hagree]
    exact (madeSettings_congr hagree hread).symm
  intro mBuf mBuf'
  exact (hzero mBuf).trans (hzero mBuf').symm

/-- And if the settings do not depend on it, all licensed fields arrived: the last byte of each shows. -/
theorem tcp_independent_licensed
    (h : Independent fun mBuf =>
      madeSettings 0 ((applyTcpHdr build flags now server).run (mBuf.store 0 bytes)) (mBuf.store 0 bytes)) :
    TcpLicensed build flags ((Buf.zero.store 0 bytes).be16 32) server bytes.length := by
  have hrun (k : Nat) : (applyTcpHdr build flags now server).run ((Buf.spot k 1).store 0 bytes) =
      (applyTcpHdr build flags now server).run (Buf.zero.store 0 bytes) :=
    congrArg Prod.fst (h (Buf.spot k 1) Buf.zero)
  have hextend (hflag : Flags.test flags HEADER_EXTEND = true) : 48 ≤ bytes.length := by
    by_contra hshort
    have htos := congrArg ThreadSettings.mTOS (hrun 47)
    rw [applyTcpHdr_tos build now server _ hflag, applyTcpHdr_tos build now server _ hflag] at htos
    exact Buf.be16_spot_ne (by omega) (by decide) rfl (BitVec.eq_of_toNat_eq (Int.ofNat.inj htos))
  have hupper {k : Nat} (hk : 34 ≤ k) :
      ((Buf.spot k 1).store 0 bytes).be16 32 = (Buf.zero.store 0 bytes).be16 32 := Buf.be16_spot 1 (by omega)
  constructor
  · intro hv1
    cases hflag : Flags.test flags HEADER_EXTEND
    · by_contra hshort
      have hreads (b : Buf) := (readsClientSettings_v1 build flags now hserver hflag b).trans hv1
      have hclient := congrArg Prod.snd (h (Buf.spot 23 1) Buf.zero)
      exact madeSettings_spot_ne (by omega) (hreads _) (hreads _) hclient
    · have := hextend hflag
      omega
  · exact hextend
  · intro hflag hepoch
    by_contra hshort
    have htime := congrArg ThreadSettings.txstartEpoch (hrun 71)
    rw [applyTcpHdr_txstartEpoch build now server _ hflag (by rw [hupper (by omega)]; exact hepoch),
      applyTcpHdr_txstartEpoch build now server _ hflag hepoch] at htime
    exact time_spot_ne (by omega) htime
  · intro hflag htrip
    by_contra hshort
    have htime := congrArg ThreadSettings.sentTime (hrun 71)
    rw [applyTcpHdr_sentTime build now server _ hflag (by rw [hupper (by omega)]; exact htrip),
      applyTcpHdr_sentTime build now server _ hflag htrip] at htime
    exact time_spot_ne (by omega) htime
  · intro hflag hburst
    by_contra hshort
    have hfps := congrArg ThreadSettings.mFPS (hrun 87)
    rw [applyTcpHdr_mFPS build now server _ hflag (by rw [hupper (by omega)]; exact hburst),
      applyTcpHdr_mFPS build now server _ hflag hburst] at hfps
    have hl : ((Buf.spot 87 1).store 0 bytes).be32 80 = (Buf.zero.store 0 bytes).be32 80 := Buf.be32_spot 1 (by decide)
    refine fixedPoint_ne hl ?_ ?_ hfps
    · rw [Buf.be32_getLsbD _ _ (by decide), Buf.store_spot_self (by omega)]
      decide
    · rw [Buf.be32_getLsbD _ _ (by decide), Buf.store_zero_of_le (by omega)]
      decide
  · intro hflag hprefetch
    by_contra hshort
    have hvalue := congrArg ThreadSettings.mWritePrefetch (hrun 59)
    rw [applyTcpHdr_mWritePrefetch _ _ _ _ _ hflag (by rw [hupper (by omega)]; exact hprefetch),
      applyTcpHdr_mWritePrefetch _ _ _ _ _ hflag hprefetch] at hvalue
    exact Buf.be32_spot_ne (by omega) (by decide) rfl (BitVec.eq_of_toInt_eq hvalue)

end

/-! ## The connection -/

theorem outcome_of_ne {r : Verdict × Exchange} (h : r.1 ≠ .accept) : outcome r = (r.1, none) := by
  unfold outcome
  rw [if_neg h]

section
variable (listener : ThreadSettings) (mBuf : Buf) (front : Byte) {stream : List Byte}

/-- What is read of the peer does not depend on what was in the buffer. -/
theorem start_agree {n : Nat} (hn : n ≤ stream.length) :
    Agree n ((Exchange.start listener mBuf front stream).received n).mBuf
      ((Exchange.start listener Buf.zero front stream).received n).mBuf := by
  have hagree := Agree.store mBuf Buf.zero (stream.take n)
  rwa [List.length_take_of_le hn] at hagree

theorem start_flags (hstream : 4 ≤ stream.length) :
    (Exchange.start listener mBuf front stream).flags = (Exchange.start listener Buf.zero front stream).flags :=
  (start_agree listener mBuf front hstream).be32 (by omega)

/-- Nor does the key that is read. -/
theorem start_keyed_window (n off keylen : Nat) (hread : off + keylen ≤ (stream.drop n).length) :
    (((Exchange.start listener mBuf front stream).received n).received (off + keylen)).mBuf.window off keylen =
      (((Exchange.start listener Buf.zero front stream).received n).received (off + keylen)).mBuf.window off keylen := by
  apply Buf.window_congr
  have hagree := Agree.store ((Exchange.start listener mBuf front stream).received n).mBuf
    ((Exchange.start listener Buf.zero front stream).received n).mBuf ((stream.drop n).take (off + keylen))
  rwa [List.length_take_of_le hread] at hagree

/-- What lies behind it was in the buffer before. -/
theorem start_keyed_behind (n off keylen : Nat) (hn : n ≤ off + keylen) :
    (((Exchange.start listener mBuf front stream).received n).received (off + keylen)).mBuf (off + keylen) =
      mBuf (off + keylen) := by
  refine (Buf.store_of_le _ 0 _ ?_).trans (Buf.store_of_le _ 0 _ ?_)
  · rw [List.length_take]
    omega
  · show 0 + (stream.take n).length ≤ _
    rw [List.length_take]
    omega

variable {n off : Nat} (hn : n ≤ stream.length) (hoff : off ≤ n) (hfour : 4 ≤ n)
include hn hoff hfour

theorem start_keyLength :
    keyLength ((Exchange.start listener mBuf front stream).received n) off =
      keyLength ((Exchange.start listener Buf.zero front stream).received n) off := by
  have hagree := start_agree listener mBuf front hn
  unfold keyLength
  split
  · rw [hagree 0 (by omega)]
    rfl
  · rw [hagree.be16 (by omega)]

theorem start_keyAsked (flags : BitVec 32) :
    keyAsked flags ((Exchange.start listener mBuf front stream).received n) off =
      keyAsked flags ((Exchange.start listener Buf.zero front stream).received n) off := by
  unfold keyAsked
  rw [start_keyLength listener mBuf front hn hoff hfour]
  rfl

theorem start_keyEqual {keylen : Nat}
    (hkeylen : keyLength ((Exchange.start listener Buf.zero front stream).received n) off = keylen)
    (hmax : keylen ≤ MAX_PERMITKEY_LEN) (hread : off + keylen ≤ (stream.drop n).length) :
    keyEqual listener ((Exchange.start listener mBuf front stream).received n) off =
      keyEqual listener ((Exchange.start listener Buf.zero front stream).received n) off := by
  unfold keyEqual
  rw [start_keyLength listener mBuf front hn hoff hfour, hkeylen]
  simp only [keyValue, List.take_takeWhile]
  rw [Buf.window_take _ _ (Nat.le_succ_of_le hmax), Buf.window_take _ _ (Nat.le_succ_of_le hmax),
    start_keyed_window listener mBuf front n off keylen hread]

end

/-- `strncpy` copies the byte behind a key that has no terminator. -/
theorem keyValue_ne {b b' : Buf} {off keylen : Nat} {key : List Byte} (hmax : keylen ≤ MAX_PERMITKEY_LEN)
    (hwindow : b.window off keylen = b'.window off keylen) (hkey : (keyValue b' off).take keylen = key)
    (hlength : key.length = keylen) (hb : b (off + keylen) = 1) (hb' : b' (off + keylen) = 0) :
    keyValue b off ≠ keyValue b' off := by
  have hlen : (b'.window off keylen).length = keylen := Buf.window_length ..
  have hfull : ((b'.window off keylen).takeWhile (· != 0)).length = (b'.window off keylen).length := by
    unfold keyValue at hkey
    rw [List.take_takeWhile, Buf.window_take _ _ (Nat.le_succ_of_le hmax)] at hkey
    rw [hkey, hlength, hlen]
  have hnext (c : Buf) (hc : c.window off keylen = b'.window off keylen) :
      (keyValue c off).take (keylen + 1) = b'.window off keylen ++ [c (off + keylen)].takeWhile (· != 0) := by
    unfold keyValue
    rw [List.take_takeWhile, Buf.window_take _ _ (Nat.succ_le_succ hmax), Buf.window_succ, List.takeWhile_append, hc,
      if_pos hfull]
  intro heq
  have hlengths := congrArg List.length (congrArg (List.take (keylen + 1)) heq)
  rw [hnext b hwindow, hnext b' rfl, hb, hb', List.length_append, List.length_append] at hlengths
  have hone : ([1].takeWhile (· != (0 : Byte))).length = 1 := rfl
  have hnone : ([0].takeWhile (· != (0 : Byte))).length = 0 := rfl
  omega

/-- The byte behind an accepted key was not sent, and it becomes part of the server's key. -/
theorem keyed_ne (listener : ThreadSettings) (front : Byte) {stream : List Byte} {n off : Nat} (hn : n ≤ stream.length)
    (hoff : off ≤ n) (hfour : 4 ≤ n) (hnext : n ≤ off + 4) {flags : BitVec 32}
    (hfound : KeyFound listener flags ((Exchange.start listener Buf.zero front stream).received n) off) :
    ∃ mBuf, (((Exchange.start listener mBuf front stream).received n).keyed off true).server.mPermitKey ≠
      (((Exchange.start listener Buf.zero front stream).received n).keyed off true).server.mPermitKey := by
  obtain ⟨keylen, hkeylen⟩ : ∃ keylen,
      keyLength ((Exchange.start listener Buf.zero front stream).received n) off = keylen := ⟨_, rfl⟩
  obtain ⟨-, hmin, hmax, hlength⟩ := (keyAsked_iff _ _ _).mp hfound.asked
  have hread := hfound.stream
  have hequal := beq_iff_eq.mp hfound.equal
  rw [hkeylen] at hmin hmax hlength hread hequal
  unfold MIN_PERMITKEY_LEN at hmin
  have hlistener : keylen = listener.mPermitKey.length := hlength
  refine ⟨Buf.spot (off + keylen) 1, ?_⟩
  show keyValue (((Exchange.start listener (Buf.spot (off + keylen) 1) front stream).received n).received
      (off + keyLength _ off)).mBuf off ≠
    keyValue (((Exchange.start listener Buf.zero front stream).received n).received (off + keyLength _ off)).mBuf off
  rw [start_keyLength listener (Buf.spot (off + keylen) 1) front hn hoff hfour, hkeylen]
  refine keyValue_ne hmax (start_keyed_window listener _ front n off keylen hread) hequal ?_ ?_ ?_
  · rw [hlistener, List.take_length]
  · rw [start_keyed_behind _ _ _ _ _ _ (by omega)]
    exact if_pos rfl
  · rw [start_keyed_behind _ _ _ _ _ _ (by omega)]
    rfl

/-- Nothing of the listener's settings comes from bytes that did not arrive: no key is accepted, and without keys all
licensed fields arrived. -/
def TcpSound (build : Build) (listener : ThreadSettings) (front : Byte) (stream : List Byte) : Prop :=
  let x := Exchange.start listener Buf.zero front stream
  let readlen := settingsClientTestHdrLen x.flags x.server
  let n := max 4 readlen.toNat
  4 ≤ stream.length → 0 < readlen → n ≤ stream.length →
    if listener.isPermitKey then ¬ KeyFound listener x.flags (x.received n) readlen.toNat
    else
      Flags.test x.flags HEADER_KEYCHECK = true ∨
        TcpLicensed build x.flags ((x.received n).mBuf.be16 32) (newServer listener) n

section
variable (build : Build) (listener : Listener) (htcp : listener.settings.isUDP = false) (now : Int) (front : Byte)
  {stream : List Byte} {n off : Nat} (hn : n ≤ stream.length) (hoff : off ≤ n) (hfour : 4 ≤ n) (flags : BitVec 32)
include hn hoff hfour htcp

/-- The verdict of the key check depends on what was read. -/
theorem testPermitKey_verdict (mBuf : Buf) :
    (testPermitKey listener.settings flags ((Exchange.start listener.settings mBuf front stream).received n) off).1 =
      (testPermitKey listener.settings flags
        ((Exchange.start listener.settings Buf.zero front stream).received n) off).1 := by
  rw [testPermitKey_eq _ _ _ _ htcp, testPermitKey_eq _ _ _ _ htcp,
    start_keyAsked listener.settings mBuf front hn hoff hfour]
  cases hasked : keyAsked flags ((Exchange.start listener.settings Buf.zero front stream).received n) off
  · rfl
  obtain ⟨-, -, hmax, -⟩ := (keyAsked_iff _ _ _).mp hasked
  rw [Bool.not_true, if_neg Bool.false_ne_true, if_neg Bool.false_ne_true,
    start_keyLength listener.settings mBuf front hn hoff hfour]
  have hstream : ((Exchange.start listener.settings mBuf front stream).received n).stream = stream.drop n := rfl
  have hstream' : ((Exchange.start listener.settings Buf.zero front stream).received n).stream = stream.drop n := rfl
  rw [hstream, hstream']
  by_cases hshort : (stream.drop n).length <
      off + keyLength ((Exchange.start listener.settings Buf.zero front stream).received n) off
  · rw [if_pos hshort, if_pos hshort]
  rw [if_neg hshort, if_neg hshort,
    start_keyEqual listener.settings mBuf front hn hoff hfour rfl hmax (by omega)]
  cases keyEqual listener.settings ((Exchange.start listener.settings Buf.zero front stream).received n) off
  · rw [Bool.not_false, if_pos rfl, if_pos rfl]
  · rw [Bool.not_true, if_neg Bool.false_ne_true, if_neg Bool.false_ne_true]

/-- A listener with a key is sound if and only if it does not accept one. -/
theorem tcp_key_independent (hkey : listener.settings.isPermitKey = true) (hnext : n ≤ off + 4) :
    (Independent fun mBuf => outcome (applyTcpRead build listener.settings flags now
        ((Exchange.start listener.settings mBuf front stream).received n) n off)) ↔
      ¬ KeyFound listener.settings flags ((Exchange.start listener.settings Buf.zero front stream).received n) off := by
  have hcheck (mBuf : Buf) : checkKey listener.settings flags
      ((Exchange.start listener.settings mBuf front stream).received n) off =
        testPermitKey listener.settings flags ((Exchange.start listener.settings mBuf front stream).received n) off := by
    unfold checkKey
    rw [if_pos hkey]
  have hverdict (mBuf : Buf) := testPermitKey_verdict listener htcp front hn hoff hfour flags mBuf
  have haccept (mBuf : Buf) := testPermitKey_accept
    ((Exchange.start listener.settings mBuf front stream).received n) listener.settings flags off htcp
  constructor
  · intro h hfound
    obtain ⟨mBuf, hne⟩ := keyed_ne listener.settings front hn hoff hfour hnext hfound
    have hread (mBuf : Buf) : checkKey listener.settings flags
        ((Exchange.start listener.settings mBuf front stream).received n) off =
          (.accept, ((Exchange.start listener.settings mBuf front stream).received n).keyed off true) := by
      have hfirst := (hverdict mBuf).trans ((haccept Buf.zero).1.mpr hfound)
      rw [hcheck]
      exact Prod.ext hfirst ((haccept mBuf).2 ((haccept mBuf).1.mp hfirst))
    have hsettings := congrArg Prod.snd (h mBuf Buf.zero)
    simp only [applyTcpRead_accept _ build now n (hread _), outcome, if_true, Option.some.injEq] at hsettings
    have hserver := congrArg ThreadSettings.mPermitKey (congrArg Prod.fst hsettings)
    simp only [madeSettings, applyTcpHdr_mPermitKey] at hserver
    exact hne hserver
  · intro hnot mBuf mBuf'
    have hreject : (testPermitKey listener.settings flags
        ((Exchange.start listener.settings Buf.zero front stream).received n) off).1 ≠ .accept :=
      fun h => hnot ((haccept Buf.zero).1.mp h)
    have hnone (mBuf : Buf) : outcome (applyTcpRead build listener.settings flags now
        ((Exchange.start listener.settings mBuf front stream).received n) n off) =
          ((testPermitKey listener.settings flags
            ((Exchange.start listener.settings Buf.zero front stream).received n) off).1, none) := by
      have hfirst := (applyTcpRead_checkKey ((Exchange.start listener.settings mBuf front stream).received n) build
        listener.settings flags now n off).1
      rw [hcheck, hverdict] at hfirst
      rw [outcome_of_ne (by rw [hfirst]; exact hreject), hfirst]
    exact (hnone mBuf).trans (hnone mBuf').symm

omit htcp hoff hfour in
/-- And one without keys, if and only if it rejects them or all licensed fields arrived. -/
theorem tcp_nokey_independent (hkey : listener.settings.isPermitKey = false) :
    (Independent fun mBuf => outcome (applyTcpRead build listener.settings flags now
        ((Exchange.start listener.settings mBuf front stream).received n) n off)) ↔
      Flags.test flags HEADER_KEYCHECK = true ∨
        TcpLicensed build flags ((Buf.zero.store 0 (stream.take n)).be16 32) (newServer listener.settings) n := by
  have hlen : (stream.take n).length = n := List.length_take_of_le hn
  by_cases hcheck : Flags.test flags HEADER_KEYCHECK = true
  · have hreject (mBuf : Buf) : outcome (applyTcpRead build listener.settings flags now
        ((Exchange.start listener.settings mBuf front stream).received n) n off) = (.reject, none) := by
      unfold applyTcpRead checkKey
      rw [hkey, hcheck]
      rfl
    constructor
    · intro _
      exact Or.inl hcheck
    · intro _ mBuf mBuf'
      exact (hreject mBuf).trans (hreject mBuf').symm
  · have haccept (mBuf : Buf) : outcome (applyTcpRead build listener.settings flags now
        ((Exchange.start listener.settings mBuf front stream).received n) n off) =
          (.accept, some (madeSettings 0 ((applyTcpHdr build flags now
            { newServer listener.settings with firstreadbytes := n }).run (mBuf.store 0 (stream.take n)))
              (mBuf.store 0 (stream.take n)))) := by
      have hread : checkKey listener.settings flags
          ((Exchange.start listener.settings mBuf front stream).received n) off =
            (.accept, (Exchange.start listener.settings mBuf front stream).received n) := by
        unfold checkKey
        rw [hkey, if_neg Bool.false_ne_true, if_neg hcheck]
      rw [applyTcpRead_accept _ build now n hread]
      rfl
    have hserver : serverMode { newServer listener.settings with firstreadbytes := n } = Mode.normal.server :=
      newServer_mode listener
    constructor
    · intro h
      right
      have hmade : Independent fun mBuf => madeSettings 0 ((applyTcpHdr build flags now
          { newServer listener.settings with firstreadbytes := n }).run (mBuf.store 0 (stream.take n)))
            (mBuf.store 0 (stream.take n)) := by
        intro mBuf mBuf'
        have hboth := congrArg Prod.snd (h mBuf mBuf')
        simp only [haccept, Option.some.injEq] at hboth
        exact hboth
      have hlicensed := tcp_independent_licensed build flags now hserver hmade
      rw [hlen] at hlicensed
      exact ⟨hlicensed.v1, hlicensed.extend, hlicensed.epochStart, hlicensed.tripTime, hlicensed.periodicBurst,
        hlicensed.writePrefetch⟩
    · intro h mBuf mBuf'
      have hlicensed := h.resolve_left hcheck
      have htaken : TcpLicensed build flags ((Buf.zero.store 0 (stream.take n)).be16 32)
          { newServer listener.settings with firstreadbytes := n } (stream.take n).length := by
        rw [hlen]
        exact ⟨hlicensed.v1, hlicensed.extend, hlicensed.epochStart, hlicensed.tripTime, hlicensed.periodicBurst,
          hlicensed.writePrefetch⟩
      have hmade := tcp_licensed_independent build flags now hserver htaken
      have hboth := congrArg (fun settings => (Verdict.accept, some settings)) (hmade mBuf mBuf')
      exact (haccept mBuf).trans (hboth.trans (haccept mBuf').symm)

end

/-- The course of a connection, by the flags and the length that are read from any buffer. -/
theorem applyClientSettingsTcp_start (build : Build) (listener : ThreadSettings) (now : Int) (front : Byte)
    {stream : List Byte} (hstream : 4 ≤ stream.length) :
    ∃ flags readlen, (Exchange.start listener Buf.zero front stream).flags = flags ∧
      settingsClientTestHdrLen flags (newServer listener) = readlen ∧
      ∀ mBuf, applyClientSettingsTcp build listener now (.start listener mBuf front stream) =
        if readlen ≤ 0 then (.accept, (Exchange.start listener mBuf front stream).received 4)
        else if stream.length < max 4 readlen.toNat then
          (.stop, (Exchange.start listener mBuf front stream).received (max 4 readlen.toNat))
        else applyTcpRead build listener flags now
          ((Exchange.start listener mBuf front stream).received (max 4 readlen.toNat)) (max 4 readlen.toNat)
            readlen.toNat := by
  refine ⟨_, _, rfl, rfl, fun mBuf => ?_⟩
  have hserver : (Exchange.start listener mBuf front stream).server = newServer listener := rfl
  rw [applyClientSettingsTcp_eq _ _ _ _ hstream, start_flags _ _ _ hstream, hserver]
  rfl

/-- The settings of a TCP connection do not depend on the previous content of the buffer if and only if no key is
accepted and all licensed fields arrived. -/
theorem tcp_independent (build : Build) (listener : Listener) (htcp : listener.settings.isUDP = false) (now : Int)
    (front : Byte) (stream : List Byte) :
    (Independent fun mBuf => outcome (applyClientSettingsTcp build listener.settings now
        (.start listener.settings mBuf front stream))) ↔ TcpSound build listener.settings front stream := by
  have hconst {v : Verdict × Option (ThreadSettings × Option ThreadSettings)}
      (h : ∀ mBuf, outcome (applyClientSettingsTcp build listener.settings now
        (.start listener.settings mBuf front stream)) = v) :
      Independent fun mBuf => outcome (applyClientSettingsTcp build listener.settings now
        (.start listener.settings mBuf front stream)) :=
    fun mBuf mBuf' => (h mBuf).trans (h mBuf').symm
  by_cases hstream : 4 ≤ stream.length
  swap
  · have hshort (mBuf : Buf) : outcome (applyClientSettingsTcp build listener.settings now
        (.start listener.settings mBuf front stream)) = (.reject, none) := by
      rw [applyClientSettingsTcp_short _ _ _ _ (not_le.mp hstream)]
      rfl
    exact ⟨fun _ h => absurd h hstream, fun _ => hconst hshort⟩
  obtain ⟨flags, readlen, hflags, hreadlen, hrun⟩ :=
    applyClientSettingsTcp_start build listener.settings now front hstream
  have hsound : TcpSound build listener.settings front stream ↔ (0 < readlen → max 4 readlen.toNat ≤ stream.length →
      if listener.settings.isPermitKey then ¬ KeyFound listener.settings flags
        ((Exchange.start listener.settings Buf.zero front stream).received (max 4 readlen.toNat)) readlen.toNat
      else Flags.test flags HEADER_KEYCHECK = true ∨
        TcpLicensed build flags ((Buf.zero.store 0 (stream.take (max 4 readlen.toNat))).be16 32)
          (newServer listener.settings) (max 4 readlen.toNat)) := by
    have hserver : (Exchange.start listener.settings Buf.zero front stream).server = newServer listener.settings := rfl
    unfold TcpSound
    dsimp only
    rw [hflags, hserver, hreadlen]
    exact ⟨fun h => h hstream, fun h _ => h⟩
  rw [hsound]
  by_cases hpos : readlen ≤ 0
  · have hnothing (mBuf : Buf) : outcome (applyClientSettingsTcp build listener.settings now
        (.start listener.settings mBuf front stream)) = (.accept, some (newServer listener.settings, none)) := by
      have hserver : ((Exchange.start listener.settings mBuf front stream).received 4).server =
          newServer listener.settings := rfl
      rw [hrun, if_pos hpos, outcome, if_pos rfl, madeSettings, hserver,
        readsClientSettings_normal (newServer_mode listener), if_neg Bool.false_ne_true]
    exact ⟨fun _ h => absurd h (not_lt.mpr hpos), fun _ => hconst hnothing⟩
  by_cases hshort : stream.length < max 4 readlen.toNat
  · have hstop (mBuf : Buf) : outcome (applyClientSettingsTcp build listener.settings now
        (.start listener.settings mBuf front stream)) = (.stop, none) := by
      rw [hrun, if_neg hpos, if_pos hshort]
      rfl
    exact ⟨fun _ _ h => absurd hshort (not_lt.mpr h), fun _ => hconst hstop⟩
  simp only [hrun, if_neg hpos, if_neg hshort]
  rw [not_le] at hpos
  rw [not_lt] at hshort
  simp only [hpos, hshort, forall_const]
  cases hkey : listener.settings.isPermitKey
  · rw [if_neg Bool.false_ne_true]
    exact tcp_nokey_independent build listener now front hshort flags hkey
  · rw [if_pos rfl]
    exact tcp_key_independent build listener htcp now front hshort (le_max_right ..) (le_max_left ..) flags hkey
      (by omega)

/-- The header fits in the buffer, and so does the key that is stored behind as many bytes. -/
def TcpRoom (build : Build) (listener : ThreadSettings) (front : Byte) (stream : List Byte) : Prop :=
  let x := Exchange.start listener Buf.zero front stream
  let readlen := settingsClientTestHdrLen x.flags x.server
  let n := max 4 readlen.toNat
  4 ≤ stream.length → 0 < readlen → (min n stream.length : Nat) ≤ mbuflen build listener.mBufLen ∧
    (n ≤ stream.length → listener.isPermitKey = true → keyAsked x.flags (x.received n) readlen.toNat = true →
      (min (readlen.toNat + keyLength (x.received n) readlen.toNat) (stream.length - n) : Nat) ≤
        mbuflen build listener.mBufLen)

theorem mbuflen_le (build : Build) (mBufLen : Int) : 244 ≤ mbuflen build mBufLen := by
  unfold mbuflen MINMBUFALLOCSIZE sizeofClientTcpTesthdr TAPBYTESSLOP
  split <;> omega

/-- All that is stored of a TCP connection fits if and only if there is room for it. -/
theorem tcp_stored (build : Build) (listener : Listener) (htcp : listener.settings.isUDP = false) (now : Int)
    (front : Byte) (stream : List Byte) :
    (∀ mBuf, ((applyClientSettingsTcp build listener.settings now (.start listener.settings mBuf front stream)).2.stored :
        Int) ≤ mbuflen build listener.settings.mBufLen) ↔ TcpRoom build listener.settings front stream := by
  have hmin := mbuflen_le build listener.settings.mBufLen
  by_cases hstream : 4 ≤ stream.length
  swap
  · have hshort (mBuf : Buf) : (applyClientSettingsTcp build listener.settings now
        (.start listener.settings mBuf front stream)).2.stored ≤ 4 := by
      rw [applyClientSettingsTcp_short _ _ _ _ (not_le.mp hstream)]
      show max 0 (min 4 stream.length) ≤ 4
      omega
    exact ⟨fun _ h => absurd h hstream, fun _ mBuf => by have := hshort mBuf; omega⟩
  obtain ⟨flags, readlen, hflags, hreadlen, hrun⟩ :=
    applyClientSettingsTcp_start build listener.settings now front hstream
  have hserver : (Exchange.start listener.settings Buf.zero front stream).server = newServer listener.settings := rfl
  unfold TcpRoom
  dsimp only
  rw [hflags, hserver, hreadlen]
  by_cases hpos : readlen ≤ 0
  · have hnothing (mBuf : Buf) : (applyClientSettingsTcp build listener.settings now
        (.start listener.settings mBuf front stream)).2.stored ≤ 4 := by
      rw [hrun, if_pos hpos]
      show max 0 (min 4 stream.length) ≤ 4
      omega
    exact ⟨fun _ _ h => absurd h (not_lt.mpr hpos), fun _ mBuf => by have := hnothing mBuf; omega⟩
  by_cases hshort : stream.length < max 4 readlen.toNat
  · have hstop (mBuf : Buf) : (applyClientSettingsTcp build listener.settings now
        (.start listener.settings mBuf front stream)).2.stored = min (max 4 readlen.toNat) stream.length := by
      rw [hrun, if_neg hpos, if_pos hshort]
      exact max_eq_right (Nat.zero_le _)
    simp only [hstop]
    constructor
    · intro h _ _
      exact ⟨h Buf.zero, fun hle => absurd hshort (not_lt.mpr hle)⟩
    · intro h _
      exact (h hstream (not_le.mp hpos)).1
  rw [not_lt] at hshort
  obtain ⟨n, hn⟩ : ∃ n, max 4 readlen.toNat = n := ⟨_, rfl⟩
  rw [hn] at hshort
  obtain ⟨keylen, hkeylen⟩ : ∃ keylen,
      keyLength ((Exchange.start listener.settings Buf.zero front stream).received n) readlen.toNat = keylen := ⟨_, rfl⟩
  have hread (mBuf : Buf) : (applyClientSettingsTcp build listener.settings now
      (.start listener.settings mBuf front stream)).2.stored =
        if listener.settings.isPermitKey && keyAsked flags
            ((Exchange.start listener.settings Buf.zero front stream).received n) readlen.toNat then
          max n (min (readlen.toNat + keylen) (stream.length - n))
        else n := by
    have hstored : ((Exchange.start listener.settings mBuf front stream).received n).stored = n := by
      show max 0 (min n stream.length) = n
      omega
    have hlen : ((Exchange.start listener.settings mBuf front stream).received n).stream.length = stream.length - n :=
      List.length_drop
    rw [hrun, if_neg hpos, hn, if_neg (not_lt.mpr hshort), applyTcpRead_stored, checkKey]
    cases listener.settings.isPermitKey
    · rw [if_neg Bool.false_ne_true, Bool.false_and, if_neg Bool.false_ne_true]
      split <;> exact hstored
    · rw [if_pos rfl, Bool.true_and, testPermitKey_stored _ _ _ _ htcp, hstored, hlen,
        start_keyAsked _ _ _ hshort (by omega) (by omega), start_keyLength _ _ _ hshort (by omega) (by omega), hkeylen]
  simp only [hread, hn, hkeylen, hstream, not_le.mp hpos, hshort, forall_const, min_eq_left]
  obtain ⟨asked, hasked⟩ : ∃ asked, keyAsked flags
      ((Exchange.start listener.settings Buf.zero front stream).received n) readlen.toNat = asked := ⟨_, rfl⟩
  rw [hasked]
  cases listener.settings.isPermitKey <;> cases asked <;>
    simp only [Bool.false_and, Bool.true_and, Bool.and_false, Bool.false_eq_true, if_false, if_true, false_implies,
      implies_true, and_true, forall_const]
  constructor
  · intro h
    omega
  · rintro ⟨hheader, hkey⟩
    omega

/-! ## UDP -/

/-- All fields that the flags of a UDP header license lie in the first `n` bytes of the datagram; the flags are those
in the first two bytes of their word. -/
structure UdpLicensed (flags : BitVec 32) (upperflags : BitVec 16) (n : Nat) : Prop where
  word : 18 ≤ n
  v1 : Flags.test flags HEADER32_SMALL_TRIPTIMES = false → v1test flags = true → 40 ≤ n
  extend : Flags.test flags HEADER32_SMALL_TRIPTIMES = false → Flags.test flags HEADER_EXTEND = true → 64 ≤ n
  epochStart : Flags.test flags HEADER32_SMALL_TRIPTIMES = false → Flags.test flags HEADER_EXTEND = true →
    Flags.test upperflags HEADER_EPOCH_START = true → 120 ≤ n
  tripTime : Flags.test flags HEADER32_SMALL_TRIPTIMES = false → Flags.test flags HEADER_EXTEND = true →
    Flags.test upperflags HEADER_TRIPTIME = true → 120 ≤ n
  version2 : Flags.test flags HEADER32_SMALL_TRIPTIMES = false → Flags.test flags HEADER_VERSION2 = true → 49 ≤ n

/-- The flags of a UDP header are in the first two bytes of their word, but for `RUN_NOW`. -/
theorem udpFlags_upper {b b' : Buf} (h : b.be16 16 = b'.be16 16) {mask : BitVec 16} {flag : BitVec 32}
    (hflag : flag = mask ++ 0#16) : Flags.test (b.be32 16) flag = Flags.test (b'.be32 16) flag := by
  rw [Buf.be32_eq_append, Buf.be32_eq_append, hflag, h]
  exact (Flags.test_append ..).trans (Flags.test_append ..).symm

/-- So these two bytes decide what is read, unless `RUN_NOW` matters. -/
theorem applyUdpHdr_upper {b b' : Buf} (h : b.be16 16 = b'.be16 16)
    (hrun : Flags.test (b.be32 16) HEADER32_SMALL_TRIPTIMES = false → v1test (b.be32 16) = true →
      b.be32 16 = b'.be32 16) (now : Int) (server : ThreadSettings) :
    applyUdpHdr (b.be32 16) now server = applyUdpHdr (b'.be32 16) now server := by
  have hsmall := udpFlags_upper h (show HEADER32_SMALL_TRIPTIMES = 0x0002#16 ++ 0#16 by decide)
  have hseqno := udpFlags_upper h (show HEADER_SEQNO64B = 0x0800#16 ++ 0#16 by decide)
  have hextend := udpFlags_upper h (show HEADER_EXTEND = 0x4000#16 ++ 0#16 by decide)
  have htests := udpFlags_upper h (show HEADER_UDPTESTS = 0x2000#16 ++ 0#16 by decide)
  have hversion1 := udpFlags_upper h (show HEADER_VERSION1 = 0x8000#16 ++ 0#16 by decide)
  have hversion2 := udpFlags_upper h (show HEADER_VERSION2 = 0x0400#16 ++ 0#16 by decide)
  unfold applyUdpHdr
  rw [← hsmall]
  cases htest : Flags.test (b.be32 16) HEADER32_SMALL_TRIPTIMES
  · have hv1 (server : ThreadSettings) : applyV1 (b.be32 16) server = applyV1 (b'.be32 16) server := by
      cases hv1 : v1test (b.be32 16)
      · have hv1' : v1test (b'.be32 16) = false := by
          rw [← hv1, v1test, v1test, hversion1, hversion2]
        unfold applyV1
        rw [hv1, hv1']
        rfl
      · rw [hrun htest hv1]
    unfold applyUdpFull applySeqNo64b applyUdpExtend applyUdpTests
    simp only [Bool.false_eq_true, if_false, hseqno, hextend, htests, hversion2, hv1]
  · unfold applySeqNo64b
    rw [if_pos rfl, if_pos rfl, hseqno]

theorem smallTriptimes_byte (b : Buf) : Flags.test (b.be32 16) HEADER32_SMALL_TRIPTIMES = (b 17).getLsbD 1 := by
  rw [show HEADER32_SMALL_TRIPTIMES = BitVec.twoPow 32 17 by decide, Flags.test_twoPow]
  simp only [Buf.be32, BitVec.getLsbD_append]
  rfl

section
variable (now : Int) {server : ThreadSettings} (hserver : serverMode server = Mode.normal.server) {bytes : List Byte}
include hserver

/-- What makes a server start a client. -/
theorem readsClientSettings_udp {flags : BitVec 32} (b : Buf)
    (hreads : readsClientSettings ((applyUdpHdr flags now server).run b) = true) :
    Flags.test flags HEADER32_SMALL_TRIPTIMES = false ∧
      (v1test flags = true ∨ Flags.test flags HEADER_VERSION2 = true) := by
  cases hsmall : Flags.test flags HEADER32_SMALL_TRIPTIMES
  · refine ⟨rfl, ?_⟩
    cases hversion2 : Flags.test flags HEADER_VERSION2
    · have hmode := applyUdpHdr_mode flags now server b hsmall
      rw [hversion2, if_neg Bool.false_ne_true, applyV1_mode hserver] at hmode
      rw [readsClientSettings_applyV1 hmode] at hreads
      exact Or.inl hreads
    · exact Or.inr rfl
  · have hmode := (applyUdpHdr_small flags now server b hsmall).trans hserver
    rw [readsClientSettings_normal hmode] at hreads
    cases hreads

theorem readsClientSettings_udp_v1 {flags : BitVec 32} (b : Buf)
    (hsmall : Flags.test flags HEADER32_SMALL_TRIPTIMES = false) (hv1 : v1test flags = true) :
    readsClientSettings ((applyUdpHdr flags now server).run b) = true := by
  have hversion2 : Flags.test flags HEADER_VERSION2 = false := by
    have := (Bool.and_eq_true_iff.mp hv1).2
    rwa [Bool.not_eq_true'] at this
  have hmode := applyUdpHdr_mode flags now server b hsmall
  rw [hversion2, if_neg Bool.false_ne_true, applyV1_mode hserver] at hmode
  rw [readsClientSettings_applyV1 hmode, hv1]

/-- The full duplex flag of a version 2 header is a bit of one byte. -/
theorem applyUdpHdr_fullDuplex {flags : BitVec 32} (hsmall : Flags.test flags HEADER32_SMALL_TRIPTIMES = false)
    (hversion2 : Flags.test flags HEADER_VERSION2 = true) (b : Buf) :
    (serverMode ((applyUdpHdr flags now server).run b)).isFullDuplex = Flags.test (b 48) 0x08 := by
  obtain ⟨-, hnofull, -, -⟩ := ServerMode.mk.inj (applyV1_mode hserver flags)
  have hnofull' : (serverMode (applyV1 flags server)).isFullDuplex = false := hnofull
  rw [applyUdpHdr_mode flags now server b hsmall, if_pos hversion2, v2Mode, hnofull', Bool.false_or,
    show HEADER_FULLDUPLEX = 0x08#8 ++ 0#8 by decide]
  exact Flags.test_append ..

omit hserver in
/-- Without `HEADER_EXTEND` the only field is the byte with the full duplex and reverse flags. -/
theorem applyUdpHdr_plain {flags : BitVec 32} (hsmall : Flags.test flags HEADER32_SMALL_TRIPTIMES = false)
    (hextend : Flags.test flags HEADER_EXTEND = false) {b b' : Buf}
    (hbyte : Flags.test flags HEADER_VERSION2 = true → b 48 = b' 48) :
    (applyUdpHdr flags now server).run b = (applyUdpHdr flags now server).run b' := by
  have hrun (b : Buf) : (applyUdpHdr flags now server).run b =
      if Flags.test flags HEADER_VERSION2 then applyUdpV2 (b.be16 48) (applyV1 flags (applySeqNo64b flags server))
      else applyV1 flags (applySeqNo64b flags server) := by
    unfold applyUdpHdr
    rw [hsmall, if_neg Bool.false_ne_true, applyUdpFull, hextend, if_neg Bool.false_ne_true, run_bind, run_ite]
    rfl
  rw [hrun, hrun]
  split
  · rename_i hversion2
    have htest (mask : Byte) : Flags.test (b.be16 48) (mask ++ 0#8) = Flags.test (b'.be16 48) (mask ++ 0#8) := by
      unfold Buf.be16
      rw [hbyte hversion2]
      exact (Flags.test_append ..).trans (Flags.test_append ..).symm
    have hfull := htest 0x08#8
    have hreverse := htest 0x04#8
    rw [show 0x08#8 ++ 0#8 = HEADER_FULLDUPLEX by decide] at hfull
    rw [show 0x04#8 ++ 0#8 = HEADER_REVERSE by decide] at hreverse
    unfold applyUdpV2
    simp only [hfull, hreverse]
  · rfl

/-- If all licensed fields arrived, the settings do not depend on what was in the buffer. -/
theorem udp_licensed_independent
    (h : UdpLicensed ((Buf.zero.store 0 bytes).be32 16) ((Buf.zero.store 0 bytes).be16 48) bytes.length) :
    Independent fun mBuf =>
      madeSettings 16 ((applyClientSettingsUdp now server).run (mBuf.store 0 bytes)) (mBuf.store 0 bytes) := by
  obtain ⟨flags, hflags⟩ : ∃ flags, (Buf.zero.store 0 bytes).be32 16 = flags := ⟨_, rfl⟩
  rw [hflags] at h
  have hword := h.word
  have hread : readsClientSettings ((applyUdpHdr flags now server).run (Buf.zero.store 0 bytes)) = true →
      16 + 24 ≤ bytes.length := by
    intro hreads
    obtain ⟨hsmall, hv1 | hversion2⟩ := readsClientSettings_udp now hserver _ hreads
    · exact h.v1 hsmall hv1
    · have := h.version2 hsmall hversion2
      omega
  have hzero (mBuf : Buf) :
      madeSettings 16 ((applyClientSettingsUdp now server).run (mBuf.store 0 bytes)) (mBuf.store 0 bytes) =
        madeSettings 16 ((applyUdpHdr flags now server).run (Buf.zero.store 0 bytes)) (Buf.zero.store 0 bytes) := by
    have hagree := Agree.store Buf.zero mBuf bytes
    have hdecoder : applyUdpHdr ((mBuf.store 0 bytes).be32 16) now server = applyUdpHdr flags now server := by
      have hupper := applyUdpHdr_upper (hagree.be16 (by omega : 16 + 2 ≤ bytes.length)) (fun hsmall hv1 => by
        rw [hflags] at hsmall hv1
        have := h.v1 hsmall hv1
        exact hagree.be32 (by omega)) now server
      rw [← hupper, hflags]
    have hrun : (applyUdpHdr flags now server).run (Buf.zero.store 0 bytes) =
        (applyUdpHdr flags now server).run (mBuf.store 0 bytes) := by
      cases hsmall : Flags.test flags HEADER32_SMALL_TRIPTIMES
      · cases hextend : Flags.test flags HEADER_EXTEND
        · refine applyUdpHdr_plain now hsmall hextend fun hversion2 => hagree 48 ?_
          have := h.version2 hsmall hversion2
          omega
        · have hextended := h.extend hsmall hextend
          refine run_congr ((covered_applyUdpHdr ..).mpr ?_) hagree
          rw [hsmall, if_neg Bool.false_ne_true]
          exact ⟨fun _ => ⟨hextended, h.epochStart hsmall hextend, h.tripTime hsmall hextend⟩, fun _ => by omega⟩
      · refine run_congr ((covered_applyUdpHdr ..).mpr ?_) hagree
        rw [hsmall, if_pos rfl]
        omega
    show madeSettings 16 ((applyUdpHdr ((mBuf.store 0 bytes).be32 16) now server).run (mBuf.store 0 bytes)) _ = _
    rw [hdecoder, ← hrun]
    exact (madeSettings_congr hagree hread).symm
  intro mBuf mBuf'
  exact (hzero mBuf).trans (hzero mBuf').symm

omit hserver in
/-- A server does not take trip times from a header without that flag. -/
theorem applyUdpHdr_noTripTime {flags : BitVec 32} (hsmall : Flags.test flags HEADER32_SMALL_TRIPTIMES = false) {b : Buf}
    (htrip : Flags.test (b.be16 48) HEADER_TRIPTIME = false) :
    ((applyUdpHdr flags now server).run b).isTripTime = server.isTripTime := by
  have hread (server : ThreadSettings) : ((applyUdpExtend flags now server).run b).isTripTime = server.isTripTime := by
    simp only [applyUdpExtend, run_bind, run_ntohs]
    rw [applyTripTime, run_ite, htrip, if_neg Bool.false_ne_true, run_pure,
      applyEpochStart_frame ThreadSettings.isTripTime _ _ _ _ _ fun _ _ _ => rfl]
    unfold applyUdpTests
    split <;> rfl
  cases hextend : Flags.test flags HEADER_EXTEND
  · unfold applyUdpHdr
    rw [hsmall, if_neg Bool.false_ne_true, applyUdpFull, hextend, if_neg Bool.false_ne_true, run_bind, run_ite]
    split <;> rfl
  · rw [applyUdpHdr_frame now server b hsmall hextend ThreadSettings.isTripTime fun _ _ _ _ _ _ => rfl]
    exact hread _

/-- And if the settings do not depend on it, all licensed fields arrived. -/
theorem udp_independent_licensed (htrip : server.isTripTime = false)
    (h : Independent fun mBuf =>
      madeSettings 16 ((applyClientSettingsUdp now server).run (mBuf.store 0 bytes)) (mBuf.store 0 bytes)) :
    UdpLicensed ((Buf.zero.store 0 bytes).be32 16) ((Buf.zero.store 0 bytes).be16 48) bytes.length := by
  obtain ⟨flags, hflags⟩ : ∃ flags, (Buf.zero.store 0 bytes).be32 16 = flags := ⟨_, rfl⟩
  have hrun (k : Nat) (v : Byte) : (applyClientSettingsUdp now server).run ((Buf.spot k v).store 0 bytes) =
      (applyClientSettingsUdp now server).run (Buf.zero.store 0 bytes) :=
    congrArg Prod.fst (h (Buf.spot k v) Buf.zero)
  have hspot {k : Nat} (hk : 20 ≤ k) (v : Byte) :
      (applyUdpHdr flags now server).run ((Buf.spot k v).store 0 bytes) =
        (applyUdpHdr flags now server).run (Buf.zero.store 0 bytes) := by
    have hfirst := hrun k v
    unfold applyClientSettingsUdp at hfirst
    simp only [run_bind, run_ntohl] at hfirst
    rwa [Buf.be32_spot v hk, hflags] at hfirst
  have hupper {k : Nat} (hk : 50 ≤ k) :
      ((Buf.spot k 1).store 0 bytes).be16 48 = (Buf.zero.store 0 bytes).be16 48 := Buf.be16_spot 1 hk
  rw [hflags]
  constructor
  · by_contra hshort
    have hsmall : Flags.test (((Buf.spot 17 2).store 0 bytes).be32 16) HEADER32_SMALL_TRIPTIMES = true := by
      rw [smallTriptimes_byte, Buf.store_spot_self (by omega)]
      decide
    have hnot : Flags.test ((Buf.zero.store 0 bytes).be32 16) HEADER32_SMALL_TRIPTIMES = false := by
      rw [smallTriptimes_byte, Buf.store_zero_of_le (by omega)]
      decide
    have hnotrip : Flags.test ((Buf.zero.store 0 bytes).be16 48) HEADER_TRIPTIME = false := by
      unfold Buf.be16
      rw [Buf.store_zero_of_le (by omega), Buf.store_zero_of_le (by omega)]
      decide
    have htime := congrArg ThreadSettings.isTripTime (hrun 17 2)
    unfold applyClientSettingsUdp at htime
    simp only [run_bind, run_ntohl] at htime
    rw [applyUdpHdr_noTripTime now hnot hnotrip, htrip, applyUdpHdr, if_pos hsmall] at htime
    cases htime
  · intro hsmall hv1
    by_contra hshort
    have hclient := congrArg Prod.snd (h (Buf.spot 39 1) Buf.zero)
    have hreads (b : Buf) (hb : b.be32 16 = flags) :
        readsClientSettings ((applyClientSettingsUdp now server).run b) = true := by
      subst hb
      exact readsClientSettings_udp_v1 now hserver b hsmall hv1
    exact madeSettings_spot_ne (by omega) (hreads _ ((Buf.be32_spot 1 (by decide)).trans hflags)) (hreads _ hflags) hclient
  · intro hsmall hextend
    by_contra hshort
    have htos := congrArg ThreadSettings.mTOS (hspot (k := 63) (by decide) 1)
    rw [applyUdpHdr_tos now server _ hsmall hextend, applyUdpHdr_tos now server _ hsmall hextend] at htos
    exact Buf.be16_spot_ne (by omega) (by decide) rfl (BitVec.eq_of_toNat_eq (Int.ofNat.inj htos))
  · intro hsmall hextend hepoch
    by_contra hshort
    have htime := congrArg ThreadSettings.txstartEpoch (hspot (k := 119) (by decide) 1)
    rw [applyUdpHdr_txstartEpoch now server _ hsmall hextend (by rw [hupper (by decide)]; exact hepoch),
      applyUdpHdr_txstartEpoch now server _ hsmall hextend hepoch] at htime
    exact time_spot_ne (by omega) htime
  · intro hsmall hextend htriptime
    by_contra hshort
    have htime := congrArg ThreadSettings.sentTime (hspot (k := 119) (by decide) 1)
    rw [applyUdpHdr_sentTime now server _ hsmall hextend (by rw [hupper (by decide)]; exact htriptime),
      applyUdpHdr_sentTime now server _ hsmall hextend htriptime] at htime
    exact time_spot_ne (by omega) htime
  · intro hsmall hversion2
    by_contra hshort
    have hmode := congrArg (fun server => (serverMode server).isFullDuplex) (hspot (k := 48) (by decide) 8)
    simp only [applyUdpHdr_fullDuplex now hserver hsmall hversion2] at hmode
    rw [Buf.store_spot_self (by omega), Buf.store_zero_of_le (by omega)] at hmode
    revert hmode
    decide

end

/-- Nothing of the server's settings comes from bytes that did not arrive. -/
def UdpSound (listener : ThreadSettings) (datagram : List Byte) : Prop :=
  let bytes := udpAccept listener datagram
  let mBuf := Buf.zero.store 0 bytes
  UdpLicensed (mBuf.be32 16) (mBuf.be16 48) bytes.length

theorem udp_independent (listener : Listener) (now : Int) (datagram : List Byte) :
    Independent (udpOutcome listener.settings now datagram) ↔ UdpSound listener.settings datagram := by
  have hserver : serverMode
      { newServer listener.settings with firstreadbytes := (udpAccept listener.settings datagram).length } =
        Mode.normal.server := newServer_mode listener
  exact ⟨udp_independent_licensed now hserver listener.noTripTime, udp_licensed_independent now hserver⟩

/-- A datagram fits unless `-l` is negative. -/
theorem udp_stored (build : Build) (listener : ThreadSettings) (datagram : List Byte) :
    ((udpAccept listener datagram).length : Int) ≤ mbuflen build listener.mBufLen ↔
      0 ≤ listener.mBufLen ∨ (datagram.length : Int) ≤ mbuflen build listener.mBufLen := by
  have hmbuf : listener.mBufLen ≤ mbuflen build listener.mBufLen := by
    unfold mbuflen TAPBYTESSLOP
    split <;> omega
  unfold udpAccept
  split
  · omega
  · rw [List.length_take]
    omega

/-- What a listener makes of any bytes is made of these bytes alone, and fits in its buffer, if and only if all
licensed fields arrived, no key is accepted and there is room. -/
theorem malformed_header_safety (build : Build) (listener : Listener) (now : Int) :
    (listener.settings.isUDP = false → ∀ front stream,
      let run := fun mBuf => applyClientSettingsTcp build listener.settings now
        (.start listener.settings mBuf front stream)
      (Independent fun mBuf => outcome (run mBuf)) ∧
          (∀ mBuf, ((run mBuf).2.stored : Int) ≤ mbuflen build listener.settings.mBufLen) ↔
        TcpSound build listener.settings front stream ∧ TcpRoom build listener.settings front stream) ∧
    (listener.settings.isUDP = true → ∀ datagram,
      Independent (udpOutcome listener.settings now datagram) ∧
          ((udpAccept listener.settings datagram).length : Int) ≤ mbuflen build listener.settings.mBufLen ↔
        UdpSound listener.settings datagram ∧
          (0 ≤ listener.settings.mBufLen ∨ (datagram.length : Int) ≤ mbuflen build listener.settings.mBufLen)) := by
  constructor
  · intro htcp front stream run
    exact and_congr (tcp_independent build listener htcp now front stream)
      (tcp_stored build listener htcp now front stream)
  · intro _ datagram
    exact and_congr (udp_independent listener now datagram) (udp_stored build listener.settings datagram)

/-- 60 bytes, and the flags `HEADER_EXTEND` and `HEADER_LEN_BIT` with this length. -/
def wholeHeader : List Byte := [0x40, 0x01, 0x00, 0x78] ++ List.replicate 56 0

theorem wholeHeader_sound : TcpSound ⟨true, false⟩ defaultListener.settings 0 wholeHeader := by
  intro _ _ _
  rw [if_neg (by decide)]
  right
  constructor <;> decide

theorem wholeHeader_room : TcpRoom ⟨true, false⟩ defaultListener.settings 0 wholeHeader := by
  intro _ _
  refine ⟨by decide, fun _ hkey => ?_⟩
  cases hkey

theorem malformed_header_safety_whole :
    Independent fun mBuf => outcome (applyClientSettingsTcp ⟨true, false⟩ defaultListener.settings 0
      (.start defaultListener.settings mBuf 0 wholeHeader)) :=
  (((malformed_header_safety ⟨true, false⟩ defaultListener 0).1 rfl 0 wholeHeader).mpr
    ⟨wholeHeader_sound, wholeHeader_room⟩).1

/-- A header of 4 bytes that claims `HEADER_EXTEND`: the type of service is what was in the buffer. -/
theorem malformed_header_safety_fails :
    ¬ ∀ (build : Build) (listener : Listener) (now : Int) (front : Byte) (stream : List Byte),
      listener.settings.isUDP = false →
      Independent fun mBuf => outcome (applyClientSettingsTcp build listener.settings now
        (.start listener.settings mBuf front stream)) := by
  intro h
  have hsame := h ⟨true, false⟩ defaultListener 0 0 [0x40, 0x01, 0x00, 0x08] rfl (Buf.spot 47 1) Buf.zero
  have htos := congrArg (fun r => r.2.map fun settings => settings.1.mTOS) hsame
  revert htos
  decide

end Iperf2.Header
