import Iperf2.Lib.ByteOrder
import Iperf2.Traffic.Quintuple

/-!
# Incremented addresses

With `--incr-dstip` and `--incr-srcip`, `client_init` numbers the threads of a client, and `SockAddr_remoteAddr` and
`SockAddr_localAddr` add the number of a thread to the address that all of them are given. `SockAddr_incrAddress` adds
it, converted to network byte order, to a word that is in network byte order.

* `incrAddress`, `clientInit`, `remoteAddr`, `localAddr` : the code;
* `SockAddr.low` : the last four bytes of an address, as a number; `Incremented` : an address that is so much further;
* `incrAddress_big`, `incrAddress_little` : a big-endian host counts, a little-endian one does if no octet carries;
* `incremented_addresses_iff` : the addresses of the threads;
* `incrAddress_injective` : they are distinct in any case.
-/

namespace Iperf2.Traffic

/-! ## Addresses of threads -/

/-- `SockAddr_incrAddress` -/
def incrAddress (host : Endian) (inSockAddr : SockAddr) (value : Int) : SockAddr :=
  match inSockAddr with
  | .inet sin => .inet { sin with sinAddr := sin.sinAddr + host.htonl (BitVec.ofInt 32 value) }
  | .inet6 sin6 => .inet6 { sin6 with sin6Addr := { sin6.sin6Addr with
      -- `s6_addr[12]`
      word3 := sin6.sin6Addr.word3 + host.htonl (BitVec.ofInt 32 value) } }

/-- `SockAddr_setPort` -/
def setPort (host : Endian) (inSockAddr : SockAddr) (inPort : BitVec 16) : SockAddr :=
  match inSockAddr with
  | .inet sin => .inet { sin with sinPort := host.htons inPort }
  | .inet6 sin6 => .inet6 { sin6 with sin6Port := host.htons inPort }

/-- What `client_init` sets in the settings of a thread. The zero address of `peer` is `none`. -/
structure ClientThread where
  peer : Option SockAddr
  mPort : BitVec 16
  incrsrcip : Int
  incrdstip : Int
  incrsrcport : Int

/-- The settings that `client_init` reads. The parser exits if the ports are no range. It has resolved `peer` already,
but not for a link-local address. -/
structure InitSettings where
  mThreads : Int
  mPort : BitVec 16
  mPortLast : BitVec 16
  isIncrSrcIP : Bool
  isIncrDstIP : Bool
  isIncrDstPort : Bool
  mLocalhost : Option String
  mBindPort : BitVec 16
  isLinklocal : Bool
  hports : mPort ≤ mPortLast

namespace InitSettings
variable (host : Endian) (hostname : SockAddr) (clients : InitSettings)

/-- The settings of the first thread, which the others are copied from. `mHost` resolves to `hostname`. -/
def first : ClientThread where
  peer := if clients.isLinklocal then none else some (setPort host hostname clients.mPort)
  mPort := clients.mPort
  incrsrcip := 0
  incrdstip := 0
  incrsrcport := 0

/-- The copy for port `j` and thread `i`. -/
def next (j i : Nat) : ClientThread :=
  let next := clients.first host hostname
  let next := if clients.isIncrSrcIP && clients.mLocalhost.isSome then { next with incrsrcip := i } else next
  let next :=
    if clients.isIncrDstIP then { next with
      incrdstip := i
      -- force a setHostname
      peer := none }
    -- case -B with src port and -P > 1
    else if clients.mBindPort ≠ 0 then { next with incrsrcport := i }
    else next
  if clients.isIncrDstPort then { next with
    mPort := next.mPort + BitVec.ofNat 16 j
    peer := none }
  else next

end InitSettings

/-- `client_init` : the chain of the threads. -/
def clientInit (host : Endian) (hostname : SockAddr) (clients : InitSettings) : List ClientThread :=
  clients.first host hostname ::
    (List.range (1 + clients.mPortLast.toNat - clients.mPort.toNat)).flatMap fun j =>
      -- skip first one as already set
      ((List.range clients.mThreads.toNat).filter fun i => !(j == 0 && i == 0)).map (clients.next host hostname j)

/-- `SockAddr_remoteAddr`, where `mHost` resolves to `hostname`. -/
def remoteAddr (host : Endian) (hostname : SockAddr) (thread : ClientThread) : SockAddr :=
  match thread.peer with
  | some peer => peer
  | none =>
    let peer := if thread.incrdstip ≠ 0 then incrAddress host hostname thread.incrdstip else hostname
    setPort host peer thread.mPort

/-- `SockAddr_localAddr`, where `mLocalhost` resolves to `localhost`. The port is set by its callers. -/
def localAddr (host : Endian) (localhost : SockAddr) (thread : ClientThread) : SockAddr :=
  if thread.incrsrcip ≠ 0 then incrAddress host localhost thread.incrsrcip else localhost

/-! ## Addresses as numbers -/

/-- The last four bytes of an address, as a big-endian number. -/
def SockAddr.low (host : Endian) : SockAddr → BitVec 32
  | .inet sin => host.htonl sin.sinAddr
  | .inet6 sin6 => host.htonl sin6.sin6Addr.word3

/-- The words in front of them. -/
def SockAddr.upper : SockAddr → List (BitVec 32)
  | .inet _ => []
  | .inet6 sin6 => [sin6.sin6Addr.word0, sin6.sin6Addr.word1, sin6.sin6Addr.word2]

/-- `addr'` is `value` addresses behind `addr`, modulo `2 ^ 32`. -/
structure Incremented (host : Endian) (addr : SockAddr) (value : Int) (addr' : SockAddr) : Prop where
  low : addr'.low host = addr.low host + BitVec.ofInt 32 value
  upper : addr'.upper = addr.upper

variable {host : Endian} {addr : SockAddr} {value : Int}

theorem incremented_zero (host : Endian) (addr : SockAddr) : Incremented host addr 0 addr :=
  ⟨(BitVec.add_zero _).symm, rfl⟩

@[simp] theorem low_setPort (host : Endian) (addr : SockAddr) (inPort : BitVec 16) :
    (setPort host addr inPort).low host = addr.low host := by
  cases addr <;> rfl

@[simp] theorem upper_setPort (host : Endian) (addr : SockAddr) (inPort : BitVec 16) :
    (setPort host addr inPort).upper = addr.upper := by
  cases addr <;> rfl

theorem incremented_setPort (inPort : BitVec 16) (addr' : SockAddr) :
    Incremented host addr value (setPort host addr' inPort) ↔ Incremented host addr value addr' := by
  constructor
  · rintro ⟨hlow, hupper⟩
    exact ⟨(low_setPort host addr' inPort).symm.trans hlow, (upper_setPort host addr' inPort).symm.trans hupper⟩
  · rintro ⟨hlow, hupper⟩
    exact ⟨(low_setPort host addr' inPort).trans hlow, (upper_setPort host addr' inPort).trans hupper⟩

theorem upper_incrAddress (host : Endian) (addr : SockAddr) (value : Int) :
    (incrAddress host addr value).upper = addr.upper := by
  cases addr <;> rfl

/-- A big-endian host counts. -/
theorem incrAddress_big (addr : SockAddr) (value : Int) :
    Incremented .big addr value (incrAddress .big addr value) := by
  refine ⟨?_, upper_incrAddress _ _ _⟩
  cases addr with
  | inet sin => exact Endian.htonl_add_big _ _
  | inet6 sin6 => exact Endian.htonl_add_big _ _

/-- A little-endian host counts if no octet carries. -/
theorem incrAddress_little (addr : SockAddr) (value : Int) :
    Incremented .little addr value (incrAddress .little addr value) ↔
      NoCarry (addr.low .little) (BitVec.ofInt 32 value) := by
  have hlow : (incrAddress .little addr value).low .little = addr.low .little + BitVec.ofInt 32 value ↔
      NoCarry (addr.low .little) (BitVec.ofInt 32 value) := by
    cases addr with
    | inet sin => exact Endian.htonl_add_little_iff _ _
    | inet6 sin6 => exact Endian.htonl_add_little_iff _ _
  rw [← hlow]
  constructor
  · exact Incremented.low
  · intro h
    exact ⟨h, upper_incrAddress _ _ _⟩

/-- Threads with different numbers have different addresses. -/
theorem incrAddress_injective {value' : Int} (h : incrAddress host addr value = incrAddress host addr value')
    (hle : 0 ≤ value) (hlt : value < 2147483648) (hle' : 0 ≤ value') (hlt' : value' < 2147483648) : value = value' := by
  have hword : host.htonl (BitVec.ofInt 32 value) = host.htonl (BitVec.ofInt 32 value') := by
    cases addr with
    | inet sin =>
      simp only [incrAddress, SockAddr.inet.injEq, SockAddrIn.mk.injEq, and_true] at h
      exact (BitVec.add_right_inj _).mp h
    | inet6 sin6 =>
      simp only [incrAddress, SockAddr.inet6.injEq, SockAddrIn6.mk.injEq, In6Addr.mk.injEq, and_true, true_and] at h
      exact (BitVec.add_right_inj _).mp h
  have htoInt := congrArg BitVec.toInt (Endian.htonl_inj.mp hword)
  rw [BitVec.toInt_ofInt, BitVec.toInt_ofInt, Int.bmod_eq_of_le (by omega) (by omega),
    Int.bmod_eq_of_le (by omega) (by omega)] at htoInt
  exact htoInt

/-! ## Threads -/

section
variable {hostname localhost : SockAddr} {clients : InitSettings} {thread : ClientThread}

theorem notFirst_iff (j i : Nat) : (!(j == 0 && i == 0)) = true ↔ ¬ (j = 0 ∧ i = 0) := by
  rw [Bool.not_eq_true', ← Bool.not_eq_true, Bool.and_eq_true, beq_iff_eq, beq_iff_eq]

theorem mem_clientInit : thread ∈ clientInit host hostname clients ↔
    thread = clients.first host hostname ∨
      ∃ j < 1 + clients.mPortLast.toNat - clients.mPort.toNat, ∃ i : Nat, i < clients.mThreads ∧ ¬ (j = 0 ∧ i = 0) ∧
        thread = clients.next host hostname j i := by
  unfold clientInit
  rw [List.mem_cons, List.mem_flatMap]
  apply or_congr_right
  constructor
  · rintro ⟨j, hj, hthread⟩
    obtain ⟨i, hi, rfl⟩ := List.mem_map.mp hthread
    obtain ⟨hrange, hfirst⟩ := List.mem_filter.mp hi
    have hi' := List.mem_range.mp hrange
    exact ⟨j, List.mem_range.mp hj, i, by omega, (notFirst_iff j i).mp hfirst, rfl⟩
  · rintro ⟨j, hj, i, hi, hfirst, rfl⟩
    have hrange := List.mem_range.mpr (show i < clients.mThreads.toNat by omega)
    exact ⟨j, List.mem_range.mpr hj,
      List.mem_map.mpr ⟨i, List.mem_filter.mpr ⟨hrange, (notFirst_iff j i).mpr hfirst⟩, rfl⟩⟩

/-- The copy of port 0 for a thread that is not the first one. -/
theorem next_mem_clientInit {i : Nat} (hpos : i ≠ 0) (hi : i < clients.mThreads) :
    clients.next host hostname 0 i ∈ clientInit host hostname clients := by
  have hports := clients.hports
  rw [BitVec.le_def] at hports
  exact mem_clientInit.mpr (.inr ⟨0, by omega, i, hi, fun h => hpos h.2, rfl⟩)

@[simp] theorem next_incrdstip (j i : Nat) :
    (clients.next host hostname j i).incrdstip = if clients.isIncrDstIP then (i : Int) else 0 := by
  unfold InitSettings.next
  dsimp only
  split_ifs <;> rfl

@[simp] theorem next_incrsrcip (j i : Nat) : (clients.next host hostname j i).incrsrcip =
    if clients.isIncrSrcIP && clients.mLocalhost.isSome then (i : Int) else 0 := by
  unfold InitSettings.next
  dsimp only
  split_ifs <;> rfl

/-- A thread whose peer is set has the number 0. -/
theorem peer_clientInit (hmem : thread ∈ clientInit host hostname clients) {peer : SockAddr}
    (hpeer : thread.peer = some peer) : thread.incrdstip = 0 ∧ peer = setPort host hostname clients.mPort := by
  have hfirst : ∀ peer, (clients.first host hostname).peer = some peer →
      peer = setPort host hostname clients.mPort := by
    intro peer h
    unfold InitSettings.first at h
    split at h
    · cases h
    · exact (Option.some.inj h).symm
  rcases mem_clientInit.mp hmem with rfl | ⟨j, -, i, -, -, rfl⟩
  · exact ⟨rfl, hfirst peer hpeer⟩
  · unfold InitSettings.next at hpeer ⊢
    dsimp only at hpeer ⊢
    split_ifs at hpeer ⊢ <;> first | cases hpeer | exact ⟨rfl, hfirst peer hpeer⟩

/-- On a little-endian host the address of a thread is right if its number causes no carry. -/
theorem incremented_remoteAddr (hmem : thread ∈ clientInit .little hostname clients) :
    Incremented .little hostname thread.incrdstip (remoteAddr .little hostname thread) ↔
      NoCarry (hostname.low .little) (BitVec.ofInt 32 thread.incrdstip) := by
  unfold remoteAddr
  split
  · rename_i peer hpeer
    obtain ⟨hzero, rfl⟩ := peer_clientInit hmem hpeer
    rw [incremented_setPort, hzero]
    exact iff_of_true (incremented_zero _ _) (noCarry_zero _)
  · rw [incremented_setPort]
    split
    · exact incrAddress_little _ _
    · rename_i hzero
      rw [not_not.mp hzero]
      exact iff_of_true (incremented_zero _ _) (noCarry_zero _)

theorem incremented_localAddr (localhost : SockAddr) (thread : ClientThread) :
    Incremented .little localhost thread.incrsrcip (localAddr .little localhost thread) ↔
      NoCarry (localhost.low .little) (BitVec.ofInt 32 thread.incrsrcip) := by
  unfold localAddr
  split
  · exact incrAddress_little _ _
  · rename_i hzero
    rw [not_not.mp hzero]
    exact iff_of_true (incremented_zero _ _) (noCarry_zero _)

/-- What holds for the number of every thread, if the threads have numbers at all and 0 is one of those it holds for. -/
theorem forall_clientInit (host : Endian) (hostname : SockAddr) {P : Int → Prop} {f : ClientThread → Int}
    {flag : Bool} (hzero : P 0) (hfirst : f (clients.first host hostname) = 0)
    (hnext : ∀ j i : Nat, f (clients.next host hostname j i) = if flag then (i : Int) else 0) :
    (∀ thread ∈ clientInit host hostname clients, P (f thread)) ↔
      (flag = true → ∀ i : Int, 0 ≤ i → i < clients.mThreads → P i) := by
  constructor
  · intro h hflag i hi hlt
    lift i to Nat using hi
    by_cases hpos : i = 0
    · rw [hpos]
      exact hzero
    · have hthread := h _ (next_mem_clientInit hpos hlt)
      rwa [hnext, if_pos hflag] at hthread
  · intro h thread hmem
    rcases mem_clientInit.mp hmem with rfl | ⟨j, -, i, hi, -, rfl⟩
    · rwa [hfirst]
    · rw [hnext]
      split
      · rename_i hflag
        exact h hflag i (Int.natCast_nonneg i) hi
      · exact hzero

end

/-- On a little-endian host an address is incremented if no octet carries; the threads of a client have consecutive
addresses if this is so for all of them. -/
theorem incremented_addresses_iff (addr : SockAddr) (value : Int) (clients : InitSettings) :
    (Incremented .little addr value (incrAddress .little addr value) ↔
      NoCarry (addr.low .little) (BitVec.ofInt 32 value)) ∧
    ((∀ thread ∈ clientInit .little addr clients,
        Incremented .little addr thread.incrdstip (remoteAddr .little addr thread)) ↔
      (clients.isIncrDstIP = true → ∀ i : Int, 0 ≤ i → i < clients.mThreads →
        NoCarry (addr.low .little) (BitVec.ofInt 32 i))) ∧
    ∀ hostname : SockAddr,
      (∀ thread ∈ clientInit .little hostname clients,
        Incremented .little addr thread.incrsrcip (localAddr .little addr thread)) ↔
      ((clients.isIncrSrcIP && clients.mLocalhost.isSome) = true → ∀ i : Int, 0 ≤ i → i < clients.mThreads →
        NoCarry (addr.low .little) (BitVec.ofInt 32 i)) := by
  refine ⟨incrAddress_little addr value, ?_, fun hostname => ?_⟩
  · rw [← forall_clientInit .little addr (P := fun i => NoCarry (addr.low .little) (BitVec.ofInt 32 i))
      (noCarry_zero _) rfl next_incrdstip]
    exact forall₂_congr fun thread hmem => incremented_remoteAddr hmem
  · rw [← forall_clientInit .little hostname (P := fun i => NoCarry (addr.low .little) (BitVec.ofInt 32 i))
      (noCarry_zero _) rfl next_incrsrcip]
    exact forall₂_congr fun thread _ => incremented_localAddr addr thread

/-- 10.0.0.255, on a little-endian host. -/
def lastOfOctet : SockAddr := .inet ⟨0xff00000a, 0⟩

/-- Two threads to consecutive addresses. -/
def twoThreads : InitSettings where
  mThreads := 2
  mPort := 5001
  mPortLast := 5001
  isIncrSrcIP := false
  isIncrDstIP := true
  isIncrDstPort := false
  mLocalhost := none
  mBindPort := 0
  isLinklocal := false
  hports := BitVec.le_refl _

/-- The address behind 10.0.0.255 is 10.0.0.0. -/
theorem incremented_wraps :
    (incrAddress .little lastOfOctet 1).low .little = 0x0a000000 ∧
      ¬ (∀ thread ∈ clientInit .little lastOfOctet twoThreads,
        Incremented .little lastOfOctet thread.incrdstip (remoteAddr .little lastOfOctet thread)) := by
  refine ⟨by decide, fun h => ?_⟩
  have hlow := (h (twoThreads.next .little lastOfOctet 0 1) (next_mem_clientInit (by decide) (by decide))).low
  revert hlow
  decide

end Iperf2.Traffic
