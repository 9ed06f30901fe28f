import Iperf2.Header.Apply

/-!
# The header on the connection

The client sends the first bytes of `Settings_GenerateClientHdr`, and traffic behind them. The listener reads the flag
word, finds the length of the header in it and reads the rest.

* `applyClientSettingsTcp_eq` : what `apply_client_settings_tcp` does, by the length it finds;
* `tcpFlags_len`, `settingsClientTestHdrLen_tcpFlags` : the length field, and the length the listener takes from it;
* `applyClientSettingsTcp_tcpHdr` : the listener on the header of a client.
-/

namespace Iperf2.Header
open Report Decoder

/-! ## Reading -/

/-- The exchange once `n` bytes are read to the start of the buffer, or all that there are. -/
def Exchange.received (x : Exchange) (n : Nat) : Exchange where
  server := x.server
  mBuf := x.mBuf.store 0 (x.stream.take n)
  front := x.front
  stream := x.stream.drop n
  stored := max x.stored (min n x.stream.length)

/-- The server's end of a new connection. -/
def Exchange.start (listener : ThreadSettings) (mBuf : Buf) (front : Byte) (stream : List Byte) : Exchange where
  server := newServer listener
  mBuf := mBuf
  front := front
  stream := stream
  stored := 0

section
variable (x : Exchange)

theorem recvn_start (n : Nat) : x.recvn 0 n = (x.received n, min n x.stream.length) := by
  simp only [Exchange.recvn, Exchange.received, Int.toNat_natCast, List.length_take, Nat.zero_add]

/-- The second read continues the first one, and reads nothing if the header is shorter than that. -/
theorem recvn_next (hstream : 4 ≤ x.stream.length) (n : Int) :
    (x.received 4).recvn 4 (n - 4) = (x.received (max 4 n.toNat), min (n.toNat - 4) (x.stream.length - 4)) := by
  have hsub : (n - 4).toNat = n.toNat - 4 := by omega
  have hlen : (x.stream.take 4).length = 4 := List.length_take_of_le hstream
  have htake : x.stream.take 4 ++ (x.stream.drop 4).take (n.toNat - 4) = x.stream.take (max 4 n.toNat) := by
    rw [show max 4 n.toNat = 4 + (n.toNat - 4) by omega, List.take_add]
  have hstore := Buf.store_append x.mBuf 0 (x.stream.take 4) ((x.stream.drop 4).take (n.toNat - 4))
  rw [hlen, Nat.zero_add, htake] at hstore
  simp only [Exchange.recvn, Exchange.received, hsub, hstore, List.drop_drop, List.length_take, List.length_drop]
  refine Prod.ext (Exchange.mk.injEq .. |>.mpr ⟨rfl, rfl, rfl, ?_, ?_⟩) rfl
  · rw [show 4 + (n.toNat - 4) = max 4 n.toNat by omega]
  · omega

/-- The flag word that the listener reads. -/
def Exchange.flags (x : Exchange) : BitVec 32 := (x.received 4).mBuf.be32 0

/-- `apply_client_settings_tcp`, by the length that the flags tell. -/
theorem applyClientSettingsTcp_eq (build : Build) (listener : ThreadSettings) (now : Int)
    (hstream : 4 ≤ x.stream.length) :
    applyClientSettingsTcp build listener now x =
      let readlen := settingsClientTestHdrLen x.flags x.server
      let n := max 4 readlen.toNat
      if readlen ≤ 0 then (.accept, x.received 4)
      else if x.stream.length < n then (.stop, x.received n)
      else applyTcpRead build listener x.flags now (x.received n) n readlen.toNat := by
  have hfirst : x.recvn 0 4 = (x.received 4, 4) := by
    rw [show (4 : Int) = (4 : Nat) from rfl, recvn_start, min_eq_left hstream]
  unfold applyClientSettingsTcp
  simp only [hfirst, lt_irrefl, if_false]
  have hserver : (x.received 4).server = x.server := rfl
  rw [hserver, show (x.received 4).mBuf.be32 0 = x.flags from rfl]
  by_cases hpos : settingsClientTestHdrLen x.flags x.server ≤ 0
  · rw [if_neg (by omega), if_pos hpos]
  · rw [if_pos (by omega), if_neg hpos, recvn_next x hstream]
    generalize settingsClientTestHdrLen x.flags x.server = readlen at hpos ⊢
    by_cases hshort : x.stream.length < max 4 readlen.toNat
    · rw [if_pos (by omega), if_pos hshort]
    · rw [if_neg (by omega), if_neg hshort,
        show 4 + min (readlen.toNat - 4) (x.stream.length - 4) = max 4 readlen.toNat by omega]

theorem applyClientSettingsTcp_short (build : Build) (listener : ThreadSettings) (now : Int)
    (hstream : x.stream.length < 4) : applyClientSettingsTcp build listener now x = (.reject, x.received 4) := by
  have hfirst : x.recvn 0 4 = (x.received 4, x.stream.length) := by
    rw [show (4 : Int) = (4 : Nat) from rfl, recvn_start, min_eq_right (by omega)]
  unfold applyClientSettingsTcp
  simp only [hfirst]
  rw [if_pos hstream]

/-- The header asks for a key check, with a key as long as the server's. -/
def keyAsked (flags : BitVec 32) (x : Exchange) (keyoffset : Nat) : Bool :=
  let keylen := keyLength x keyoffset
  Flags.test flags HEADER_KEYCHECK && !(keylen < MIN_PERMITKEY_LEN || keylen > MAX_PERMITKEY_LEN) &&
    keylen == x.server.mPermitKey.length

theorem keyAsked_iff (flags : BitVec 32) (keyoffset : Nat) :
    keyAsked flags x keyoffset = true ↔ Flags.test flags HEADER_KEYCHECK = true ∧
      MIN_PERMITKEY_LEN ≤ keyLength x keyoffset ∧ keyLength x keyoffset ≤ MAX_PERMITKEY_LEN ∧
      keyLength x keyoffset = x.server.mPermitKey.length := by
  simp only [keyAsked, Bool.and_eq_true, Bool.not_eq_true', Bool.or_eq_false_iff, decide_eq_false_iff_not, not_lt,
    gt_iff_lt, beq_iff_eq]
  tauto

/-- The key that is read behind as many bytes as the header already has is the listener's. -/
def keyEqual (listener : ThreadSettings) (x : Exchange) (keyoffset : Nat) : Bool :=
  let keylen := keyLength x keyoffset
  (keyValue (x.received (keyoffset + keylen)).mBuf keyoffset).take keylen == listener.mPermitKey.take keylen

/-- The exchange once a key is read. -/
def Exchange.keyed (x : Exchange) (keyoffset : Nat) (mKeyCheck : Bool) : Exchange :=
  let x := x.received (keyoffset + keyLength x keyoffset)
  (x.setPermitKey (keyValue x.mBuf keyoffset)).setKeyCheck mKeyCheck

theorem testPermitKey_eq (listener : ThreadSettings) (flags : BitVec 32) (keyoffset : Nat)
    (htcp : x.server.isUDP = false) :
    testPermitKey listener flags x keyoffset =
      if !keyAsked flags x keyoffset then (.reject, x.setKeyCheck false)
      else if x.stream.length < keyoffset + keyLength x keyoffset then
        (.stop, x.received (keyoffset + keyLength x keyoffset))
      else if !keyEqual listener x keyoffset then (.reject, x.keyed keyoffset false)
      else (.accept, x.keyed keyoffset true) := by
  have hrecvn : (if !x.server.isUDP then x.recvn 0 (keyoffset + keyLength x keyoffset : Nat)
      else (x, keyoffset + keyLength x keyoffset)) =
        (x.received (keyoffset + keyLength x keyoffset), min (keyoffset + keyLength x keyoffset) x.stream.length) := by
    rw [htcp, Bool.not_false, if_pos rfl, recvn_start]
  unfold testPermitKey
  split
  · rename_i hcheck
    rw [Bool.not_eq_true'] at hcheck
    have hnot : keyAsked flags x keyoffset = false := by rw [keyAsked, hcheck, Bool.false_and, Bool.false_and]
    rw [hnot]
    rfl
  rename_i hcheck
  rw [Bool.not_eq_true', Bool.not_eq_false] at hcheck
  dsimp only
  split
  · rename_i hbounds
    have hnot : keyAsked flags x keyoffset = false := by
      rw [keyAsked, hbounds, Bool.not_true, Bool.and_false, Bool.false_and]
    rw [hnot]
    rfl
  rename_i hbounds
  split
  · rename_i hlength
    have hnot : keyAsked flags x keyoffset = false := by
      rw [keyAsked, beq_eq_false_iff_ne.mpr hlength, Bool.and_false]
    rw [hnot]
    rfl
  rename_i hlength
  have hasked : keyAsked flags x keyoffset = true := by
    rw [keyAsked, hcheck, Bool.eq_false_iff.mpr hbounds, beq_iff_eq.mpr (not_not.mp hlength)]
    rfl
  rw [hasked, Bool.not_true, if_neg Bool.false_ne_true, hrecvn]
  dsimp only
  by_cases hshort : x.stream.length < keyoffset + keyLength x keyoffset
  · rw [if_pos (by omega), if_pos hshort]
  rw [if_neg (by omega), if_neg hshort]
  split
  · rename_i hvalue
    have hdiffer : keyEqual listener x keyoffset = false := beq_eq_false_iff_ne.mpr hvalue
    rw [hdiffer]
    rfl
  · rename_i hvalue
    have hequal : keyEqual listener x keyoffset = true := beq_iff_eq.mpr (not_not.mp hvalue)
    rw [hequal]
    rfl

/-- The key is stored over the header. -/
theorem testPermitKey_stored (listener : ThreadSettings) (flags : BitVec 32) (keyoffset : Nat)
    (htcp : x.server.isUDP = false) :
    (testPermitKey listener flags x keyoffset).2.stored =
      if keyAsked flags x keyoffset then max x.stored (min (keyoffset + keyLength x keyoffset) x.stream.length)
      else x.stored := by
  rw [testPermitKey_eq x listener flags keyoffset htcp]
  cases keyAsked flags x keyoffset
  · rfl
  rw [Bool.not_true, if_neg Bool.false_ne_true, if_pos rfl]
  split
  · rfl
  · cases keyEqual listener x keyoffset <;> rfl

/-- What `test_permit_key` needs to accept. -/
structure KeyFound (listener : ThreadSettings) (flags : BitVec 32) (x : Exchange) (keyoffset : Nat) : Prop where
  asked : keyAsked flags x keyoffset = true
  stream : keyoffset + keyLength x keyoffset ≤ x.stream.length
  equal : keyEqual listener x keyoffset = true

theorem testPermitKey_accept (listener : ThreadSettings) (flags : BitVec 32) (keyoffset : Nat)
    (htcp : x.server.isUDP = false) :
    ((testPermitKey listener flags x keyoffset).1 = .accept ↔ KeyFound listener flags x keyoffset) ∧
      (KeyFound listener flags x keyoffset →
        (testPermitKey listener flags x keyoffset).2 = x.keyed keyoffset true) := by
  rw [testPermitKey_eq x listener flags keyoffset htcp]
  by_cases hfound : KeyFound listener flags x keyoffset
  · have hnot := hfound.stream
    rw [hfound.asked, hfound.equal, Bool.not_true, if_neg Bool.false_ne_true, if_neg (by omega),
      if_neg Bool.false_ne_true]
    exact ⟨⟨fun _ => hfound, fun _ => rfl⟩, fun _ => rfl⟩
  · refine ⟨⟨fun h => ?_, fun h => absurd h hfound⟩, fun h => absurd h hfound⟩
    exfalso
    cases hasked : keyAsked flags x keyoffset
    · rw [hasked] at h
      cases h
    by_cases hshort : x.stream.length < keyoffset + keyLength x keyoffset
    · rw [hasked, Bool.not_true, if_neg Bool.false_ne_true, if_pos hshort] at h
      cases h
    cases hequal : keyEqual listener x keyoffset
    · rw [hasked, Bool.not_true, if_neg Bool.false_ne_true, if_neg hshort, hequal] at h
      cases h
    exact hfound ⟨hasked, by omega, hequal⟩

/-- An accepted header is applied. -/
theorem applyTcpRead_accept (build : Build) {listener : ThreadSettings} {flags : BitVec 32} (now : Int) (nread : Nat)
    {readlen : Nat} {x' : Exchange} (hcheck : checkKey listener flags x readlen = (.accept, x')) :
    applyTcpRead build listener flags now x nread readlen =
      (.accept, { x' with
        server := (applyTcpHdr build flags now { x'.server with firstreadbytes := nread }).run x'.mBuf }) := by
  unfold applyTcpRead
  rw [hcheck]

/-- The verdict is that of the key check, which is also the last to read from the connection. -/
theorem applyTcpRead_checkKey (build : Build) (listener : ThreadSettings) (flags : BitVec 32) (now : Int)
    (nread readlen : Nat) :
    (applyTcpRead build listener flags now x nread readlen).1 = (checkKey listener flags x readlen).1 ∧
      (applyTcpRead build listener flags now x nread readlen).2.stream = (checkKey listener flags x readlen).2.stream := by
  unfold applyTcpRead
  split
  · rename_i hcheck
    rw [hcheck]
    exact ⟨rfl, rfl⟩
  · exact ⟨rfl, rfl⟩

theorem applyTcpRead_stored (build : Build) (listener : ThreadSettings) (flags : BitVec 32) (now : Int)
    (nread readlen : Nat) :
    (applyTcpRead build listener flags now x nread readlen).2.stored = (checkKey listener flags x readlen).2.stored := by
  unfold applyTcpRead
  split
  · rename_i hcheck
    rw [hcheck]
  · rfl

end

/-! ## The length -/

section
variable (client : ThreadSettings)

theorem tcpKeyOffset_cases :
    tcpKeyOffset client ∈ [60, 62, 80, 82, 92, 94, 112, 114] := by
  unfold tcpKeyOffset
  rcases tcpLen_cases client with h | h | h | h <;> rw [h] <;> cases tcpPermitKey client <;> decide

/-- The length field of a TCP header holds the length before the key, and nothing else. -/
theorem tcpFlags_len : tcpFlags client &&& HEADER_KEYLEN_MASK = BitVec.ofNat 32 (tcpKeyOffset client) <<< 1 := by
  have hflags (flags : BitVec 32) : dualFlags client flags &&& HEADER_KEYLEN_MASK = flags &&& HEADER_KEYLEN_MASK := by
    unfold dualFlags
    rw [Flags.and_orIf _ _ (by decide), Flags.and_orIf _ _ (by decide)]
  have hlen : ∀ len ∈ [60, 62, 80, 82, 92, 94, 112, 114],
      HEADER_EXTEND &&& HEADER_KEYLEN_MASK ||| HEADER_LEN_BIT &&& HEADER_KEYLEN_MASK |||
        (BitVec.ofNat 32 len <<< 1 &&& HEADER_KEYLEN_MASK) &&& HEADER_KEYLEN_MASK = BitVec.ofNat 32 len <<< 1 := by
    decide
  unfold tcpFlags
  rw [Flags.or_and_mask, Flags.and_orIf _ _ (by decide), Flags.or_and_mask, Flags.and_orIf _ _ (by decide),
    Flags.and_orIf _ _ (by decide), hflags]
  exact hlen _ (tcpKeyOffset_cases client)

/-- And the listener finds this length. -/
theorem settingsClientTestHdrLen_tcpFlags (inSettings : ThreadSettings) :
    settingsClientTestHdrLen (tcpFlags client) inSettings = tcpKeyOffset client := by
  have hextend : Flags.test (tcpFlags client) HEADER_EXTEND = true := by
    rw [tcpFlags_test client (by decide), show Flags.test HEADER_EXTEND HEADER_EXTEND = true by decide]
    simp
  have hbit : Flags.test (tcpFlags client) HEADER_LEN_BIT = true := by
    rw [tcpFlags_test client (by decide), show Flags.test HEADER_LEN_BIT HEADER_LEN_BIT = true by decide]
    simp
  have hmask : tcpFlags client &&& HEADER_LEN_MASK =
      BitVec.ofNat 32 (tcpKeyOffset client) <<< 1 &&& HEADER_LEN_MASK := by
    rw [← tcpFlags_len, BitVec.and_assoc, show HEADER_KEYLEN_MASK &&& HEADER_LEN_MASK = HEADER_LEN_MASK by decide]
  have hlen : ∀ len ∈ [60, 62, 80, 82, 92, 94, 112, 114],
      ((BitVec.ofNat 32 len <<< 1 &&& HEADER_LEN_MASK) >>> 1).toNat = len ∧ len ≤ MAX_HEADER_LEN := by
    decide
  obtain ⟨hvalue, hmax⟩ := hlen _ (tcpKeyOffset_cases client)
  unfold settingsClientTestHdrLen
  rw [hextend, hbit, hmask, hvalue, Bool.or_true, Bool.true_or, if_pos rfl, if_pos rfl, if_neg (by omega)]

end

/-! ## The header of a client -/

/-- The bytes that a client sends before its traffic. -/
def sentHdr (build : Build) (client : ThreadSettings) (testhdr : Buf) (startTime : Timeval) : List Byte :=
  let (hdr, len) := settingsGenerateClientHdr build client testhdr startTime
  hdr.window 0 len

section
variable (build : Build) {client : ThreadSettings} (htcp : client.isUDP = false) (startTime : Timeval) (testhdr : Buf)
include htcp

theorem sentHdr_tcp : sentHdr build client testhdr startTime =
    (tcpHdr build client startTime testhdr).window 0 (tcpKeyOffset client + tcpKeylen client) := by
  unfold sentHdr settingsGenerateClientHdr
  rw [htcp]
  rfl

theorem sentHdr_length :
    (sentHdr build client testhdr startTime).length = tcpKeyOffset client + tcpKeylen client := by
  rw [sentHdr_tcp build htcp, Buf.window_length]

/-- The start of a stream that begins with the header. -/
theorem take_sentHdr (traffic : List Byte) {n : Nat} (hn : n ≤ tcpKeyOffset client + tcpKeylen client) :
    (sentHdr build client testhdr startTime ++ traffic).take n =
      (tcpHdr build client startTime testhdr).window 0 n := by
  rw [List.take_append_of_le_length (by rwa [sentHdr_length build htcp]), sentHdr_tcp build htcp, Buf.window_take _ _ hn]

variable (x : Exchange) {traffic : List Byte} (hx : x.stream = sentHdr build client testhdr startTime ++ traffic)
include hx

/-- The bytes of the header are in the buffer. -/
theorem received_agree {n : Nat} (hn : n ≤ tcpKeyOffset client + tcpKeylen client) :
    Agree n (x.received n).mBuf (tcpHdr build client startTime testhdr) := by
  show Agree n (x.mBuf.store 0 (x.stream.take n)) _
  rw [hx, take_sentHdr build htcp startTime testhdr traffic hn]
  exact Agree.window x.mBuf _ n

theorem flags_tcpHdr : x.flags = tcpFlags client := by
  have hlen := tcpLen_cases client
  have hagree : Agree 4 (x.received 4).mBuf (tcpHdr build client startTime testhdr) :=
    received_agree build htcp startTime testhdr x hx (by unfold tcpKeyOffset; omega)
  exact (hagree.be32 (by omega)).trans (tcpHdr_flags ..)

/-- The listener reads the header of a client up to its key and goes on with it. -/
theorem applyClientSettingsTcp_tcpHdr (listener : ThreadSettings) (now : Int) :
    applyClientSettingsTcp build listener now x =
      applyTcpRead build listener (tcpFlags client) now (x.received (tcpKeyOffset client)) (tcpKeyOffset client)
        (tcpKeyOffset client) := by
  have hcases := tcpLen_cases client
  have hlen : x.stream.length = tcpKeyOffset client + tcpKeylen client + traffic.length := by
    rw [hx, List.length_append, sentHdr_length build htcp]
  have hpos : 60 ≤ tcpKeyOffset client := by
    unfold tcpKeyOffset
    omega
  rw [applyClientSettingsTcp_eq x build listener now (by omega), flags_tcpHdr build htcp startTime testhdr x hx,
    settingsClientTestHdrLen_tcpFlags]
  simp only [Int.toNat_natCast]
  rw [if_neg (by omega), max_eq_right (by omega : 4 ≤ tcpKeyOffset client), if_neg (by omega)]

end

end Iperf2.Header
