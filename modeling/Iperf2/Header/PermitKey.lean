import Mathlib.Data.List.TakeWhile
import Iperf2.Header.Connection

/-!
# The permit key

The client sends its key behind the header, and the listener reads the header up to the key. `test_permit_key` then
reads the header's length once more, on top of the key's: it takes the key and the start of the traffic for header and
key, and looks for the key in what is traffic.

* `testPermitKey_tcpHdr` : what becomes of the connection, by the bytes behind the header;
* `permit_key_check` : so the check is right only where it rejects a wrong key.
-/

namespace Iperf2.Header
open Report Decoder

/-! ## Keys -/

/-- A key of the option `--permit-key`, a string of 4 to 128 characters. -/
structure IsPermitKey (key : List Byte) : Prop where
  min : MIN_PERMITKEY_LEN ≤ key.length
  max : key.length ≤ MAX_PERMITKEY_LEN
  noNull : ∀ c ∈ key, c ≠ 0

/-- `strncmp` finds a key if and only if the buffer holds it. -/
theorem keyValue_take_eq {key : List Byte} (hkey : IsPermitKey key) (mBuf : Buf) (keyoffset : Nat) :
    (keyValue mBuf keyoffset).take key.length = key ↔ mBuf.window keyoffset key.length = key := by
  have hmax : key.length ≤ MAX_PERMITKEY_LEN + 1 := Nat.le_succ_of_le hkey.max
  unfold keyValue
  rw [List.take_takeWhile, Buf.window_take _ _ hmax]
  constructor
  · intro h
    have hlen : (mBuf.window keyoffset key.length).length = key.length := Buf.window_length ..
    have hprefix := List.takeWhile_prefix (l := mBuf.window keyoffset key.length) (· != 0)
    have heq := hprefix.eq_of_length (by rw [h, hlen])
    rw [← heq, h]
  · intro h
    rw [h, List.takeWhile_eq_self_iff]
    intro c hc
    exact bne_iff_ne.mpr (hkey.noNull c hc)

/-! ## The check -/

section
variable {client : ThreadSettings} (hclient : Accepted client) (hkey : client.isPermitKey = true)
include hclient hkey

/-- A client with a key sends it. -/
theorem tcpPermitKey_of_accepted : tcpPermitKey client = true ∧ tcpKeylen client = client.mPermitKey.length := by
  obtain ⟨-, hmin, hmax⟩ := hclient.permitKey hkey
  have hne : client.mPermitKey ≠ [] := by
    intro hnil
    rw [hnil] at hmin
    exact absurd hmin (by decide)
  have hpermit : tcpPermitKey client = true := by
    unfold tcpPermitKey
    rw [hclient.noServerReverse, hkey, bne_iff_ne.mpr hne]
    rfl
  refine ⟨hpermit, ?_⟩
  unfold tcpKeylen
  rw [if_pos hpermit, min_eq_left hmax]

variable (build : Build) (startTime : Timeval) (testhdr : Buf)

/-- What lies behind the part of the header that the listener has read. -/
theorem drop_sentHdr (traffic : List Byte) :
    (sentHdr build client testhdr startTime ++ traffic).drop (tcpKeyOffset client) = client.mPermitKey ++ traffic := by
  obtain ⟨htcp, -, hmax⟩ := hclient.permitKey hkey
  obtain ⟨hpermit, -⟩ := tcpPermitKey_of_accepted hclient hkey
  rw [List.drop_append_of_le_length (by rw [sentHdr_length build htcp]; omega), sentHdr_tcp build htcp,
    Buf.window_drop, Nat.zero_add, tcpHdr_key build startTime testhdr hpermit hmax]

variable {x : Exchange} {traffic : List Byte} (hx : x.stream = sentHdr build client testhdr startTime ++ traffic)
include hx

theorem received_tcpHdr_stream : (x.received (tcpKeyOffset client)).stream = client.mPermitKey ++ traffic := by
  show x.stream.drop (tcpKeyOffset client) = _
  rw [hx, drop_sentHdr hclient hkey]

/-- `test_permit_key` finds the length that the client wrote. -/
theorem keyLength_tcpHdr :
    keyLength (x.received (tcpKeyOffset client)) (tcpKeyOffset client) = client.mPermitKey.length := by
  obtain ⟨hclientTcp, -, hmax⟩ := hclient.permitKey hkey
  obtain ⟨hpermit, hkeylen⟩ := tcpPermitKey_of_accepted hclient hkey
  have hoffset : tcpKeyOffset client = tcpLen client + 2 := by
    unfold tcpKeyOffset
    rw [if_pos hpermit]
  have hagree := received_agree build hclientTcp startTime testhdr x hx
    (Nat.le_add_right (tcpKeyOffset client) (tcpKeylen client))
  have hlen := tcpLen_cases client
  unfold keyLength
  rw [if_neg (by omega), show tcpKeyOffset client - 2 = tcpLen client by omega, hagree.be16 (by omega),
    tcpHdr_keylen build startTime testhdr hpermit, hkeylen, BitVec.toNat_ofNat]
  exact Nat.mod_eq_of_lt (by unfold MAX_PERMITKEY_LEN at hmax; omega)

/-- It stores bytes that lie as far behind the header as that is long. -/
theorem keyed_tcpHdr_window (hread : tcpKeyOffset client ≤ traffic.length) :
    ((x.received (tcpKeyOffset client)).received (tcpKeyOffset client + client.mPermitKey.length)).mBuf.window
        (tcpKeyOffset client) client.mPermitKey.length =
      ((client.mPermitKey ++ traffic).drop (tcpKeyOffset client)).take client.mPermitKey.length := by
  obtain ⟨keyoffset, hoffset⟩ : ∃ keyoffset, tcpKeyOffset client = keyoffset := ⟨_, rfl⟩
  have hstream := received_tcpHdr_stream hclient hkey build startTime testhdr hx
  rw [hoffset] at hread hstream ⊢
  show ((x.received keyoffset).mBuf.store 0 ((x.received keyoffset).stream.take _)).window keyoffset _ = _
  have hlen : keyoffset + client.mPermitKey.length ≤
      ((client.mPermitKey ++ traffic).take (keyoffset + client.mPermitKey.length)).length := by
    rw [List.length_take, List.length_append]
    omega
  have hwindow := Buf.window_store_of_le (x.received keyoffset).mBuf 0 _ hlen
  rw [Nat.zero_add] at hwindow
  rw [hstream, hwindow, List.drop_take, Nat.add_sub_cancel_left, List.take_take, min_self]

variable {listener : ThreadSettings} (hlistener : IsPermitKey listener.mPermitKey) (htcp : listener.isUDP = false)
  (hserver : x.server = newServer listener)
include hlistener htcp hserver

/-- The key check accepts if and only if the listener's key lies as far behind the header as that is long. -/
theorem testPermitKey_tcpHdr :
    let keyoffset := tcpKeyOffset client
    let r := testPermitKey listener (tcpFlags client) (x.received keyoffset) keyoffset
    (r.1 = .accept ↔ client.mPermitKey.length = listener.mPermitKey.length ∧ keyoffset ≤ traffic.length ∧
      ((client.mPermitKey ++ traffic).drop keyoffset).take listener.mPermitKey.length = listener.mPermitKey) ∧
    (r.1 = .accept → r.2.stream = traffic.drop keyoffset) := by
  intro keyoffset r
  obtain ⟨-, hmin, hmax⟩ := hclient.permitKey hkey
  obtain ⟨hpermit, -⟩ := tcpPermitKey_of_accepted hclient hkey
  have hstream : (x.received keyoffset).stream = client.mPermitKey ++ traffic :=
    received_tcpHdr_stream hclient hkey build startTime testhdr hx
  have hlength : keyLength (x.received keyoffset) keyoffset = client.mPermitKey.length :=
    keyLength_tcpHdr hclient hkey build startTime testhdr hx
  have hstored := keyed_tcpHdr_window hclient hkey build startTime testhdr hx
  have hcheck : Flags.test (tcpFlags client) HEADER_KEYCHECK = true := by
    rw [tcpFlags_test client (by decide), hpermit, show Flags.test HEADER_KEYCHECK HEADER_KEYCHECK = true by decide]
    simp
  have hreceived : (x.received keyoffset).server = newServer listener := hserver
  obtain ⟨haccept, hkeyed⟩ := testPermitKey_accept (x.received keyoffset) listener (tcpFlags client) keyoffset
    (by rw [hreceived]; exact htcp)
  refine ⟨haccept.trans ⟨?_, ?_⟩, ?_⟩
  · intro h
    have heq : client.mPermitKey.length = listener.mPermitKey.length := by
      rw [← hlength, ((keyAsked_iff _ _ _).mp h.asked).2.2.2, hreceived]
      rfl
    have hread : keyoffset ≤ traffic.length := by
      have := h.stream
      rw [hstream, hlength, List.length_append] at this
      omega
    refine ⟨heq, hread, ?_⟩
    have hvalue := beq_iff_eq.mp h.equal
    rw [hlength, heq, List.take_length, keyValue_take_eq hlistener] at hvalue
    rw [← heq, ← hstored hread, heq]
    exact hvalue
  · rintro ⟨heq, hread, hvalue⟩
    refine ⟨(keyAsked_iff _ _ _).mpr ⟨hcheck, by rw [hlength]; exact hmin, by rw [hlength]; exact hmax, ?_⟩, ?_,
      beq_iff_eq.mpr ?_⟩
    · rw [hlength, heq, hreceived]
      rfl
    · rw [hstream, hlength, List.length_append]
      omega
    · rw [hlength, heq, List.take_length, keyValue_take_eq hlistener, ← heq, hstored hread, heq]
      exact hvalue
  · intro h
    show (testPermitKey _ _ _ _).2.stream = _
    rw [hkeyed (haccept.mp h)]
    show (x.received keyoffset).stream.drop (keyoffset + keyLength (x.received keyoffset) keyoffset) = _
    rw [hstream, hlength, Nat.add_comm, ← List.drop_drop, List.drop_left]

/-- And so does `apply_client_settings_tcp`. -/
theorem applyClientSettingsTcp_key (hpermit : listener.isPermitKey = true) (now : Int) :
    let keyoffset := tcpKeyOffset client
    let r := applyClientSettingsTcp build listener now x
    (r.1 = .accept ↔ client.mPermitKey.length = listener.mPermitKey.length ∧ keyoffset ≤ traffic.length ∧
      ((client.mPermitKey ++ traffic).drop keyoffset).take listener.mPermitKey.length = listener.mPermitKey) ∧
    (r.1 = .accept → r.2.stream = traffic.drop keyoffset) := by
  intro keyoffset r
  obtain ⟨hclientTcp, -⟩ := hclient.permitKey hkey
  have hread : r = applyTcpRead build listener (tcpFlags client) now (x.received keyoffset) keyoffset keyoffset :=
    applyClientSettingsTcp_tcpHdr build hclientTcp startTime testhdr x hx listener now
  obtain ⟨hverdict, hstream⟩ := applyTcpRead_checkKey (x.received keyoffset) build listener (tcpFlags client) now
    keyoffset keyoffset
  have hcheck : checkKey listener (tcpFlags client) (x.received keyoffset) keyoffset =
      testPermitKey listener (tcpFlags client) (x.received keyoffset) keyoffset := by
    unfold checkKey
    rw [if_pos hpermit]
  rw [hread, hverdict, hstream, hcheck]
  exact testPermitKey_tcpHdr hclient hkey build startTime testhdr hx hlistener htcp hserver

end

/-- A connection with the right key is never accepted with its traffic intact; one with a wrong key is rejected, but
for traffic that shows the listener's key where `test_permit_key` looks for it. -/
theorem permit_key_check {env : Environment} {options : CommandLine} {client : ThreadSettings}
    (haccepted : settingsModalOptions env options.settings = some client) (hclientKey : client.isPermitKey = true)
    {listener : ThreadSettings} (htcp : listener.isUDP = false) (hpermit : listener.isPermitKey = true)
    (hkey : IsPermitKey listener.mPermitKey) (build : Build) (startTime : Timeval) (testhdr : Buf) (now : Int)
    (mBuf : Buf) (front : Byte) (traffic : List Byte) :
    let stream := sentHdr build client testhdr startTime ++ traffic
    let r := applyClientSettingsTcp build listener now (.start listener mBuf front stream)
    ((r.1 = .accept ↔ client.mPermitKey = listener.mPermitKey) ∧ (r.1 = .accept → r.2.stream = traffic)) ↔
      client.mPermitKey ≠ listener.mPermitKey ∧
        ¬ (client.mPermitKey.length = listener.mPermitKey.length ∧ tcpKeyOffset client ≤ traffic.length ∧
          ((client.mPermitKey ++ traffic).drop (tcpKeyOffset client)).take listener.mPermitKey.length =
            listener.mPermitKey) := by
  intro stream r
  obtain ⟨haccept, hstream⟩ := applyClientSettingsTcp_key (settingsModalOptions_accepted haccepted) hclientKey build
    startTime testhdr (x := .start listener mBuf front stream) rfl hkey htcp rfl hpermit now
  have hconsumed : r.1 = .accept → r.2.stream ≠ traffic := by
    intro h heq
    obtain ⟨-, hread, -⟩ := haccept.mp h
    have hlen : (traffic.drop (tcpKeyOffset client)).length = traffic.length := by rw [← hstream h, heq]
    have hcases := tcpLen_cases client
    have hoffset : tcpLen client ≤ tcpKeyOffset client := Nat.le_add_right _ _
    rw [List.length_drop] at hlen
    omega
  rw [← haccept]
  constructor
  · rintro ⟨hiff, htraffic⟩
    have hreject : ¬ r.1 = .accept := fun h => hconsumed h (htraffic h)
    exact ⟨fun heq => hreject (hiff.mpr heq), hreject⟩
  · rintro ⟨hne, hreject⟩
    exact ⟨⟨fun h => absurd h hreject, fun h => absurd h hne⟩, fun h => absurd h hreject⟩

/-- `-c host --permit-key=abcd` -/
def permitKeyClient : CommandLine where
  settings := { (default : ThreadSettings) with
    isPermitKey := true
    mPermitKey := [97, 98, 99, 100] }
  client := rfl
  noServerReverse := rfl
  noSmallTripTime := rfl

theorem permitKeyClient_accepted :
    settingsModalOptions default permitKeyClient.settings = some (modalDefaults permitKeyClient.settings) := rfl

/-- `-s --permit-key` with this key -/
def permitKeyListener (mPermitKey : List Byte) : ThreadSettings :=
  { (default : ThreadSettings) with
    isPermitKey := true
    mPermitKey }

/-- The key `wxyz` is rejected by a listener with the key `abcd`. -/
theorem permit_key_check_wrong_key :
    (applyClientSettingsTcp ⟨true, false⟩ (permitKeyListener [119, 120, 121, 122]) 0
      (.start (permitKeyListener [119, 120, 121, 122]) (fun _ => 0) 0
        (sentHdr ⟨true, false⟩ (modalDefaults permitKeyClient.settings) (fun _ => 0) ⟨0, 0⟩ ++ []))).1 ≠ .accept := by
  have htcp : (permitKeyListener [119, 120, 121, 122]).isUDP = false := rfl
  have h := (permit_key_check permitKeyClient_accepted rfl htcp rfl
    ⟨by decide, by decide, by decide⟩ ⟨true, false⟩ ⟨0, 0⟩ (fun _ => 0) 0 (fun _ => 0) 0 []).mpr
    ⟨by decide, fun hread => absurd hread.2.1 (by decide)⟩
  intro haccept
  exact absurd (h.1.mp haccept) (by decide)

/-- The key `abcd` is not accepted by a listener with this key. -/
theorem permit_key_check_fails :
    ¬ ∀ (env : Environment) (options : CommandLine) (client listener : ThreadSettings),
      settingsModalOptions env options.settings = some client → client.isPermitKey = true →
      listener.isUDP = false → listener.isPermitKey = true → IsPermitKey listener.mPermitKey →
      ∀ (build : Build) (startTime : Timeval) (testhdr : Buf) (now : Int) (mBuf : Buf) (front : Byte)
        (traffic : List Byte),
        let stream := sentHdr build client testhdr startTime ++ traffic
        let r := applyClientSettingsTcp build listener now (.start listener mBuf front stream)
        (r.1 = .accept ↔ client.mPermitKey = listener.mPermitKey) ∧ (r.1 = .accept → r.2.stream = traffic) := by
  intro h
  have hcheck := h default permitKeyClient _ (permitKeyListener [97, 98, 99, 100]) permitKeyClient_accepted rfl rfl rfl
    ⟨by decide, by decide, by decide⟩ ⟨true, false⟩ ⟨0, 0⟩ (fun _ => 0) 0 (fun _ => 0) 0 []
  have hkey : IsPermitKey (permitKeyListener [97, 98, 99, 100]).mPermitKey := ⟨by decide, by decide, by decide⟩
  have haccept := (applyClientSettingsTcp_key (settingsModalOptions_accepted permitKeyClient_accepted) rfl ⟨true, false⟩
    ⟨0, 0⟩ (fun _ => 0)
    (x := .start (permitKeyListener [97, 98, 99, 100]) (fun _ => 0) 0
      (sentHdr ⟨true, false⟩ (modalDefaults permitKeyClient.settings) (fun _ => 0) ⟨0, 0⟩ ++ [])) rfl hkey rfl rfl rfl
    0).1
  exact absurd (haccept.mp (hcheck.1.mpr rfl)).2.1 (by decide)

end Iperf2.Header
