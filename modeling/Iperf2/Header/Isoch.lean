import Iperf2.Header.Numbers
import Iperf2.Header.Rates

/-!
# The values of `--isochronous` in the test header

Frame rate, mean, variance and gap of a reverse or full duplex test go to the server as numbers in two words. The gap in
a TCP header has its second word of another expression, which subtracts the whole part times a million from the whole
part; with `--burst-size` the header has the size in place of the mean, and no gap.

* `udpHdr_isoch`, `tcpHdr_isoch`, `tcpHdr_burst` : the words in the headers;
* `isoch_round_trip` : when the server reads the values of the client.
-/

namespace Iperf2.Header
open Report Decoder FixedPoint

/-- `htonl((long)mBurstIPG - (long)mBurstIPG * rMillion)` -/
def burstIPGMicros (q : Rat) : BitVec 32 := BitVec.ofInt 32 (truncate q - truncate q * rMillion)

/-! ## Fields -/

/-- A word that `memset` cleared. -/
theorem be32_cleared (hdr : Buf) {n o : Nat} (h : o + 4 ≤ n) : (hdr.store 0 (List.replicate n 0)).be32 o = 0 := by
  have hbyte : ∀ i, i < n → hdr.store 0 (List.replicate n 0) i = 0 := by
    intro i hi
    rw [Buf.store, if_pos (Nat.zero_le i), Nat.sub_zero, List.getElem?_replicate_of_lt hi, Option.getD_some]
  rw [Buf.be32, hbyte o (by omega), hbyte (o + 1) (by omega), hbyte (o + 2) (by omega), hbyte (o + 3) (by omega)]
  rfl

section
variable (build : Build) {client : ThreadSettings} (startTime : Timeval) (testhdr : Buf)

/-- The words of a UDP header. -/
theorem udpHdr_isoch (hisoch : client.isIsochronous = true)
    (hserver : (client.isFullDuplex || client.isReverse) = true) :
    let hdr := udpHdr client startTime testhdr
    (hdr.be32 128 = whole client.mFPS ∧ hdr.be32 132 = micros client.mFPS) ∧
      (hdr.be32 136 = whole client.mMean ∧ hdr.be32 140 = micros client.mMean) ∧
      (hdr.be32 144 = whole client.mVariance ∧ hdr.be32 148 = micros client.mVariance) ∧
      hdr.be32 152 = whole client.mBurstIPG ∧ hdr.be32 156 = micros client.mBurstIPG := by
  intro hdr
  have hword : ∀ o, 128 ≤ o → hdr.be32 o = (udpFields client startTime testhdr).be32 o := by
    intro o ho
    exact udpHdr_word client startTime testhdr (by omega)
  rw [hword 128 (by decide), hword 132 (by decide), hword 136 (by decide), hword 140 (by decide),
    hword 144 (by decide), hword 148 (by decide), hword 152 (by decide), hword 156 (by decide)]
  simp (disch := omega) only [udpFields, storeUdpIsoch, storeFQRate, storeStartTime, be32_ite,
    Buf.be32_store32_of_disjoint, Buf.be32_store, ite_self, hisoch, hserver, Bool.and_self, if_true, and_self]

/-- The values are the last ones in a TCP header, over cleared bytes. -/
theorem tcpHdr_isochSettings (hisoch : client.isIsochronous = true)
    (hserver : (client.isFullDuplex || client.isReverse) = true) :
    ∃ hdr : Buf, ∀ o, 80 ≤ o → o + 4 ≤ 112 →
      hdr.be32 o = 0 ∧ (tcpHdr build client startTime testhdr).be32 o = (storeTcpIsoch client hdr).be32 o := by
  have hsettings : tcpIsochSettings client = true := by
    rw [tcpIsochSettings, hisoch, hserver]
    rfl
  have hstart : tcpStartTime client = true := by
    simp [tcpStartTime, hisoch]
  have hlen : 112 ≤ tcpLen client := (tcpLen_parts client).2.2.1 hstart hsettings
  have hfields : ∃ hdr : Buf, tcpFields build client startTime testhdr = storeTcpIsoch client hdr ∧
      ∀ o, 80 ≤ o → o + 4 ≤ 112 → hdr.be32 o = 0 := by
    unfold tcpFields
    rw [hsettings, if_pos rfl]
    refine ⟨_, rfl, ?_⟩
    intro o ho hle
    simp (disch := omega) only [storeFQRate, storeStartTime, settingsGenerateClientHdrV1, storeRate, storeVersion,
      be32_ite, Buf.be32_store32_of_disjoint, Buf.be32_store16_of_disjoint, ite_self]
    exact be32_cleared testhdr (hle.trans (by decide))
  obtain ⟨hdr, heq, hzero⟩ := hfields
  refine ⟨hdr, ?_⟩
  intro o ho hle
  refine ⟨hzero o ho hle, ?_⟩
  rw [tcpHdr_word build client startTime testhdr (by omega) (by omega), heq]

/-- The words of a TCP header. -/
theorem tcpHdr_isoch (hisoch : client.isIsochronous = true)
    (hserver : (client.isFullDuplex || client.isReverse) = true) (hburst : client.isPeriodicBurst = false) :
    let hdr := tcpHdr build client startTime testhdr
    (hdr.be32 80 = whole client.mFPS ∧ hdr.be32 84 = micros client.mFPS) ∧
      (hdr.be32 88 = whole client.mMean ∧ hdr.be32 92 = micros client.mMean) ∧
      (hdr.be32 96 = whole client.mVariance ∧ hdr.be32 100 = micros client.mVariance) ∧
      hdr.be32 104 = whole client.mBurstIPG ∧ hdr.be32 108 = burstIPGMicros client.mBurstIPG := by
  intro hdr
  obtain ⟨_, hstored⟩ := tcpHdr_isochSettings build startTime testhdr hisoch hserver
  have hword : ∀ o, 80 ≤ o → o + 4 ≤ 112 → hdr.be32 o = _ := fun o ho hle => (hstored o ho hle).2
  rw [hword 80 (by decide) (by decide), hword 84 (by decide) (by decide), hword 88 (by decide) (by decide),
    hword 92 (by decide) (by decide), hword 96 (by decide) (by decide), hword 100 (by decide) (by decide),
    hword 104 (by decide) (by decide), hword 108 (by decide) (by decide)]
  simp (disch := omega) only [storeTcpIsoch, hburst, Bool.not_false, if_true, Buf.be32_store32_of_disjoint,
    Buf.be32_store, burstIPGMicros, and_self]

/-- The words of a TCP header with `--burst-size`. -/
theorem tcpHdr_burst (hisoch : client.isIsochronous = true)
    (hserver : (client.isFullDuplex || client.isReverse) = true) (hburst : client.isPeriodicBurst = true) :
    let hdr := tcpHdr build client startTime testhdr
    (hdr.be32 80 = whole client.mFPS ∧ hdr.be32 84 = micros client.mFPS) ∧
      (hdr.be32 88 = client.mBurstSize ∧ hdr.be32 92 = 0) ∧
      (hdr.be32 96 = whole client.mVariance ∧ hdr.be32 100 = micros client.mVariance) ∧
      hdr.be32 104 = 0 ∧ hdr.be32 108 = 0 := by
  intro hdr
  obtain ⟨cleared, hstored⟩ := tcpHdr_isochSettings build startTime testhdr hisoch hserver
  have hword : ∀ o, 80 ≤ o → o + 4 ≤ 112 → hdr.be32 o = _ := fun o ho hle => (hstored o ho hle).2
  have hzero : ∀ o, 80 ≤ o → o + 4 ≤ 112 → cleared.be32 o = 0 := fun o ho hle => (hstored o ho hle).1
  rw [hword 80 (by decide) (by decide), hword 84 (by decide) (by decide), hword 88 (by decide) (by decide),
    hword 92 (by decide) (by decide), hword 96 (by decide) (by decide), hword 100 (by decide) (by decide),
    hword 104 (by decide) (by decide), hword 108 (by decide) (by decide)]
  simp (disch := omega) only [storeTcpIsoch, hburst, Bool.not_true, Bool.false_eq_true, if_false,
    Buf.be32_store32_of_disjoint, Buf.be32_store, hzero, and_self]

end

/-! ## The round trip -/

/-- The values that were read are near those of the client. -/
structure NearIsoch (client read : ThreadSettings) : Prop where
  mFPS : Near read.mFPS client.mFPS
  mMean : Near read.mMean client.mMean
  mVariance : Near read.mVariance client.mVariance
  mBurstIPG : Near read.mBurstIPG client.mBurstIPG

/-- A value that two words can have. -/
def FitsWords (q : Rat) : Prop := 0 ≤ q ∧ q < 2 ^ 32

/-- The gaps that the words of a TCP header happen to have: the low 32 bits of the second expression are the
microseconds of the gap. -/
def GapKept (q : Rat) : Prop :=
  |(((q.floor - q.floor * 1000000) % 2 ^ 32 : Int) : Rat) - (q - q.floor) * 1000000| < 1

/-- A gap of less than 4294 seconds is kept if it is less than a microsecond. -/
theorem gapKept_iff_of_lt {q : Rat} (hq : 0 ≤ q) (hlt : q < 4294) : GapKept q ↔ q < 1 / 1000000 := by
  have hnonneg : 0 ≤ q.floor := Rat.le_floor_iff.mpr (by exact_mod_cast hq)
  have hfloor : q.floor < 4294 := Rat.floor_lt_iff.mpr (by exact_mod_cast hlt)
  have hle : (q.floor : Rat) ≤ q := Rat.floor_le q
  have hnext : q < (q.floor + 1 : Int) := Rat.lt_floor_add_one q
  push_cast at hnext
  unfold GapKept
  rcases hnonneg.eq_or_lt with hzero | hpos
  · rw [← hzero, abs_lt]
    norm_num
    constructor
    · intro h
      linarith [h.1]
    · intro h
      constructor <;> linarith
  · -- the second word is beyond any microseconds
    have hword : (q.floor - q.floor * 1000000) % 2 ^ 32 = q.floor - q.floor * 1000000 + 2 ^ 32 :=
      emod_of_neg (by omega) (by omega)
    have hbeyond : (1971589 : Rat) ≤ ((q.floor - q.floor * 1000000 + 2 ^ 32 : Int) : Rat) := by
      have : 1971589 ≤ q.floor - q.floor * 1000000 + 2 ^ 32 := by omega
      exact_mod_cast this
    have hone : (1 : Rat) ≤ q.floor := by exact_mod_cast hpos
    rw [hword]
    apply iff_of_false
    · rw [not_lt]
      apply le_trans _ (le_abs_self _)
      linarith
    · linarith

/-- The clients whose values a TCP header has. -/
def IsochKept (client : ThreadSettings) : Prop :=
  if client.isPeriodicBurst then Near client.mBurstSize.toNat client.mMean ∧ Near 0 client.mBurstIPG
  else GapKept client.mBurstIPG

section
variable {hdr : Buf} {o : Nat} {q : Rat}

theorem near_of_fits (hq : FitsWords q) (hwords : hdr.be32 o = whole q ∧ hdr.be32 (o + 4) = micros q) :
    Near ((fixedPoint o).run hdr) q := by
  apply (fixedPoint_near_iff hwords.1 hwords.2 (by linarith [hq.1]) hq.2).mpr
  linarith [hq.1]

/-- A number without a fraction. -/
theorem near_whole_iff {l : BitVec 32} (hwords : hdr.be32 o = l ∧ hdr.be32 (o + 4) = 0) :
    Near ((fixedPoint o).run hdr) q ↔ Near l.toNat q := by
  have hread : (fixedPoint o).run hdr = (l.toNat : Rat) := by
    show ((hdr.be32 o).toNat : Rat) + (hdr.be32 (o + 4)).toNat / (rMillion : Int) = _
    rw [hwords.1, hwords.2]
    simp
  rw [hread]

theorem near_zero_iff (hwords : hdr.be32 o = 0 ∧ hdr.be32 (o + 4) = 0) :
    Near ((fixedPoint o).run hdr) q ↔ Near 0 q := by
  have hcast : (((0 : BitVec 32).toNat : Nat) : Rat) = 0 := by
    simp
  rw [near_whole_iff hwords, hcast]

/-- The gap of a TCP header. -/
theorem near_gap_iff (hq : FitsWords q) (hwords : hdr.be32 o = whole q ∧ hdr.be32 (o + 4) = burstIPGMicros q) :
    Near ((fixedPoint o).run hdr) q ↔ GapKept q := by
  have hfloor : truncate q = q.floor := if_neg (not_lt.mpr hq.1)
  have hnonneg : 0 ≤ q.floor := Rat.le_floor_iff.mpr (by exact_mod_cast hq.1)
  have hlt : q.floor < 2 ^ 32 := Rat.floor_lt_iff.mpr (by exact_mod_cast hq.2)
  have hread : (fixedPoint o).run hdr =
      join 1000000 (q.floor % 2 ^ 32) ((q.floor - q.floor * 1000000) % 2 ^ 32) := by
    rw [← hfloor]
    exact fixedPoint_join hwords.1 hwords.2
  have hunits : |join 1000000 q.floor ((q.floor - q.floor * 1000000) % 2 ^ 32) - q| < 1 / ((1000000 : Nat) : Rat) ↔
      _ := join_close_iff (by decide) _ _ q
  rw [Near, GapKept, hread, Int.emod_eq_of_lt hnonneg hlt]
  exact_mod_cast hunits

end

section
variable (build : Build) {client : ThreadSettings} (reader : ThreadSettings) (startTime : Timeval) (testhdr : Buf)

theorem udp_isoch (hisoch : client.isIsochronous = true)
    (hserver : (client.isFullDuplex || client.isReverse) = true) (hfps : FitsWords client.mFPS)
    (hmean : FitsWords client.mMean) (hvariance : FitsWords client.mVariance) (hipg : FitsWords client.mBurstIPG) :
    NearIsoch client ((settingsReadClientSettingsIsoch 128 reader).run (udpHdr client startTime testhdr)) := by
  obtain ⟨hfps', hmean', hvariance', hipg'⟩ := udpHdr_isoch startTime testhdr hisoch hserver
  constructor
  · exact near_of_fits hfps hfps'
  · exact near_of_fits hmean hmean'
  · exact near_of_fits hvariance hvariance'
  · exact near_of_fits hipg hipg'

theorem tcp_isoch (hisoch : client.isIsochronous = true)
    (hserver : (client.isFullDuplex || client.isReverse) = true) (hfps : FitsWords client.mFPS)
    (hmean : FitsWords client.mMean) (hvariance : FitsWords client.mVariance) (hipg : FitsWords client.mBurstIPG) :
    NearIsoch client ((settingsReadClientSettingsIsoch 80 reader).run (tcpHdr build client startTime testhdr)) ↔
      IsochKept client := by
  unfold IsochKept
  split
  next hburst =>
    obtain ⟨hfps', hmean', hvariance', hipg'⟩ := tcpHdr_burst build startTime testhdr hisoch hserver hburst
    have hmeanRead : Near _ client.mMean ↔ Near client.mBurstSize.toNat client.mMean := near_whole_iff hmean'
    have hipgRead : Near _ client.mBurstIPG ↔ Near 0 client.mBurstIPG := near_zero_iff hipg'
    constructor
    · intro h
      exact ⟨hmeanRead.mp h.mMean, hipgRead.mp h.mBurstIPG⟩
    · rintro ⟨hsize, hzero⟩
      exact ⟨near_of_fits hfps hfps', hmeanRead.mpr hsize, near_of_fits hvariance hvariance', hipgRead.mpr hzero⟩
  next hburst =>
    obtain ⟨hfps', hmean', hvariance', hipg'⟩ :=
      tcpHdr_isoch build startTime testhdr hisoch hserver (Bool.eq_false_iff.mpr hburst)
    rw [← near_gap_iff hipg hipg']
    constructor
    · intro h
      exact h.mBurstIPG
    · intro h
      exact ⟨near_of_fits hfps hfps', near_of_fits hmean hmean', near_of_fits hvariance hvariance', h⟩

/-- **The values of `--isochronous`** that are sent in a UDP header are the ones that are read, to a millionth; those in
a TCP header are so for the gaps that happen to be kept. -/
theorem isoch_round_trip (hisoch : client.isIsochronous = true)
    (hserver : (client.isFullDuplex || client.isReverse) = true)
    (hsmall : client.isUDP = true → client.isSmallTripTime = false) (hfps : FitsWords client.mFPS)
    (hmean : FitsWords client.mMean) (hvariance : FitsWords client.mVariance) (hipg : FitsWords client.mBurstIPG) :
    let hdr := (settingsGenerateClientHdr build client testhdr startTime).1
    NearIsoch client ((settingsReadClientSettingsIsoch (if client.isUDP then 128 else 80) reader).run hdr) ↔
      client.isUDP = true ∨ IsochKept client := by
  intro hdr
  cases hproto : client.isUDP with
  | true =>
    have hhdr : hdr = udpHdr client startTime testhdr := by
      simp only [hdr, settingsGenerateClientHdr, hproto, hsmall hproto, Bool.and_false, Bool.false_eq_true, if_false,
        if_true]
    rw [hhdr, if_pos rfl]
    apply iff_of_true _ (.inl rfl)
    exact udp_isoch reader startTime testhdr hisoch hserver hfps hmean hvariance hipg
  | false =>
    have hhdr : hdr = tcpHdr build client startTime testhdr := by
      simp only [hdr, settingsGenerateClientHdr, hproto, Bool.false_and, Bool.false_eq_true, if_false]
    have htcp : NearIsoch client _ ↔ IsochKept client :=
      tcp_isoch build reader startTime testhdr hisoch hserver hfps hmean hvariance hipg
    rw [hhdr, if_neg Bool.false_ne_true, htcp]
    simp

end

/-- A client of `--isochronous -R`, with the values that the option defaults to. -/
def isochClient (isUDP : Bool) : ThreadSettings := { (default : ThreadSettings) with
  isUDP
  isReverse := true
  isIsochronous := true
  mFPS := 60
  mMean := 20000000
  mVariance := 0
  mBurstIPG := 5 / 1000000 }

theorem isochClient_fits (isUDP : Bool) :
    FitsWords (isochClient isUDP).mFPS ∧ FitsWords (isochClient isUDP).mMean ∧
      FitsWords (isochClient isUDP).mVariance ∧ FitsWords (isochClient isUDP).mBurstIPG := by
  unfold FitsWords isochClient
  norm_num

theorem isoch_round_trip_udp : NearIsoch (isochClient true)
    ((settingsReadClientSettingsIsoch 128 default).run
      (settingsGenerateClientHdr ⟨false, false⟩ (isochClient true) Buf.zero ⟨0, 0⟩).1) :=
  have hfits := isochClient_fits true
  (isoch_round_trip ⟨false, false⟩ default ⟨0, 0⟩ Buf.zero rfl rfl (fun _ => rfl) hfits.1 hfits.2.1 hfits.2.2.1
    hfits.2.2.2).mpr (.inl rfl)

/-- The gap that `--isochronous` defaults to is lost in a TCP header. -/
theorem isoch_not_round_trip : ¬ NearIsoch (isochClient false)
    ((settingsReadClientSettingsIsoch 80 default).run
      (settingsGenerateClientHdr ⟨false, false⟩ (isochClient false) Buf.zero ⟨0, 0⟩).1) := by
  intro h
  obtain ⟨hfps, hmean, hvariance, hipg⟩ := isochClient_fits false
  have hkept : IsochKept (isochClient false) :=
    (tcp_isoch ⟨false, false⟩ default ⟨0, 0⟩ Buf.zero rfl rfl hfps hmean hvariance hipg).mp h
  have hgap : (5 / 1000000 : Rat) < 1 / 1000000 := (gapKept_iff_of_lt (by norm_num) (by norm_num)).mp hkept
  norm_num at hgap

end Iperf2.Header
