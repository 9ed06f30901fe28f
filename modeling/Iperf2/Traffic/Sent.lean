import Iperf2.Traffic.Client

/-!
# Datagrams of a UDP client

Both send loops number the datagrams: the id goes up after every write and is taken back when the write failed. Only
what the socket took is sent. The FIN has the negated id that comes next.

* `clientSent` : the datagrams of a client;
* `dataSent_ids` : before the FIN they are numbered 1, 2, 3 and so on, and the id that comes next is the number after
  them, unless a fatal error ended `RunUDP`: it leaves its loop with the id taken back.
-/

namespace Iperf2.Traffic
open Report

/-! ## What the client sends -/

/-- A datagram that the socket took, with the id that `WritePacketID` stored. -/
structure Sent where
  packetID : Int
  len : Nat
  pos : 0 < len
  deriving DecidableEq

theorem toNat_pos (len : { n : Int // 0 < n }) : 0 < len.1.toNat := by
  have hpos := len.2
  omega

/-- The datagram of a write with this id, if the socket takes it. -/
def WriteResult.sent (result : WriteResult) (packetID : Int) : List Sent :=
  match result with
  | .accepted len => [{
      packetID := packetID
      len := len.1.toNat
      pos := toNat_pos len }]
  | .failed _ => []

/-- The state after a write of `RunUDP` that does not end the loop. -/
def udpIteration (settings : ClientSettings) (s : UdpClient) (write : Write) : UdpClient :=
  let s := { s with reportstruct := beforeWrite s.reportstruct write.now }
  match write.result with
  | .accepted len => reportWrite settings s.accept len.1
  | .failed _ =>
    reportWrite settings { s with reportstruct := { s.reportstruct with
      packetID := s.reportstruct.packetID - 1
      errwrite := .errAccount
      emptyreport := true } } 0

/-- The datagrams of `RunUDP`. -/
def udpSent (settings : ClientSettings) (s : UdpClient) : List Write → List Sent
  | [] => []
  | write :: writes =>
    match write.result with
    | .failed true => []
    | result => result.sent s.reportstruct.packetID ++ udpSent settings (udpIteration settings s write) writes

/-- The datagrams of a frame of `RunUDPIsochronous`. -/
def isochFrameSent (settings : ClientSettings) (frameid : Int) (s : UdpClient) (bytecnt : Int) : List Write → List Sent
  | [] => []
  | write :: writes =>
    if bytecnt > 0 then
      let after := isochWrite settings frameid s bytecnt write
      write.result.sent s.reportstruct.packetID ++ isochFrameSent settings frameid after.1 after.2.1 writes
    else []

/-- The datagrams of `RunUDPIsochronous`. -/
def isochronousSent (settings : ClientSettings) (s : UdpClient) : List Frame → List Sent
  | [] => []
  | frame :: frames =>
    let bytecnt := frame.burstsize settings
    let s := { s with reportstruct := { s.reportstruct with burstsize := bytecnt } }
    let after := isochFrame settings frame.frameid s bytecnt false frame.writes
    isochFrameSent settings frame.frameid s bytecnt frame.writes ++
      if after.2 then [] else isochronousSent settings after.1 frames

def loopSent (settings : ClientSettings) (s : UdpClient) : SendLoop → List Sent
  | .udp writes => udpSent settings s writes
  | .isochronous frames => isochronousSent settings s frames

/-- The first payload, if one was sent, and the datagrams of the loop. -/
def dataSent (settings : ClientSettings) (mAmount : Int) (startTime : Timeval) (first : Option WriteResult)
    (loop : SendLoop) : List Sent :=
  let s := newClient mAmount
  first.elim [] (·.sent s.reportstruct.packetID) ++
    loopSent settings (initTrafficLoop (startSynch s startTime first)) loop

/-- All datagrams of a client, with the FIN of `FinishTrafficActions` at the end. -/
def clientSent (settings : ClientSettings) (mAmount : Int) (startTime : Timeval) (first : Option WriteResult)
    (loop : SendLoop) (fin : Write) : List Sent :=
  dataSent settings mAmount startTime first loop ++
    fin.result.sent (-(runClient settings mAmount startTime first loop).reportstruct.packetID)

/-! ## Their ids -/

/-- The `m` ids from `p` on. -/
def idsFrom (p : Int) (m : Nat) : List Int := (List.range m).map fun i : Nat => p + i

theorem idsFrom_succ (p : Int) (m : Nat) : idsFrom p (m + 1) = p :: idsFrom (p + 1) m := by
  simp only [idsFrom, List.range_succ_eq_map, List.map_cons, List.map_map]
  refine congrArg₂ List.cons (by simp) (List.map_congr_left fun i _ => ?_)
  simp only [Function.comp_apply]
  push_cast
  omega

theorem idsFrom_append (p : Int) (m k : Nat) : idsFrom p m ++ idsFrom (p + m) k = idsFrom p (m + k) := by
  induction m generalizing p with
  | zero => simp [idsFrom]
  | succ m ih =>
    rw [idsFrom_succ, List.cons_append, show p + ((m + 1 : Nat) : Int) = p + 1 + (m : Int) by push_cast; omega, ih,
      ← idsFrom_succ, Nat.add_right_comm]

/-- The socket took the datagram. -/
def WriteResult.isAccepted : WriteResult → Bool
  | .accepted _ => true
  | .failed _ => false

def WriteResult.isFatal : WriteResult → Bool
  | .failed true => true
  | _ => false

/-- How many datagrams a write sends. -/
def WriteResult.count (result : WriteResult) : Nat := if result.isAccepted then 1 else 0

theorem WriteResult.sent_ids (result : WriteResult) (p : Int) :
    (result.sent p).map (·.packetID) = idsFrom p result.count := by
  cases result with
  | accepted len => simp [sent, count, isAccepted, idsFrom]
  | failed fatal => rfl

/-- After an iteration the id has gone up by the datagram that was sent. -/
theorem udpIteration_packetID (settings : ClientSettings) (s : UdpClient) (write : Write) :
    (udpIteration settings s write).reportstruct.packetID = s.reportstruct.packetID + write.result.count := by
  unfold udpIteration
  cases write.result with
  | accepted len => rfl
  | failed fatal =>
    show s.reportstruct.packetID - 1 + 1 = s.reportstruct.packetID + 0
    omega

section
variable (settings : ClientSettings) (s : UdpClient) {write : Write} (writes : List Write)

theorem runUDPClient_cons (h : write.result.isFatal = false) :
    runUDPClient settings s (write :: writes) = runUDPClient settings (udpIteration settings s write) writes := by
  rw [runUDPClient, udpIteration]
  cases hres : write.result with
  | accepted len => rfl
  | failed fatal =>
    cases fatal with
    | true =>
      rw [hres] at h
      cases h
    | false => rfl

theorem runUDPClient_fatal (h : write.result.isFatal = true) :
    (runUDPClient settings s (write :: writes)).reportstruct.packetID = s.reportstruct.packetID - 1 := by
  unfold runUDPClient
  cases hres : write.result with
  | accepted len =>
    rw [hres] at h
    cases h
  | failed fatal =>
    cases fatal with
    | true => rfl
    | false =>
      rw [hres] at h
      cases h

theorem udpSent_cons (h : write.result.isFatal = false) : udpSent settings s (write :: writes) =
    write.result.sent s.reportstruct.packetID ++ udpSent settings (udpIteration settings s write) writes := by
  rw [udpSent]
  split
  · rename_i hres
    rw [hres] at h
    cases h
  · rfl

theorem udpSent_fatal (h : write.result.isFatal = true) : udpSent settings s (write :: writes) = [] := by
  rw [udpSent]
  split
  · rfl
  · rename_i hno
    cases hres : write.result with
    | accepted len =>
      rw [hres] at h
      cases h
    | failed fatal =>
      cases fatal with
      | true => exact absurd hres hno
      | false =>
        rw [hres] at h
        cases h

end

/-- What `RunUDP` sends before its first fatal error. -/
def sentBefore (writes : List Write) : Nat :=
  ((writes.takeWhile fun write => !write.result.isFatal).map (·.result.count)).sum

/-- `RunUDP` numbers its datagrams one by one; after a fatal error the id is the one of the last datagram, else the
next one. -/
theorem udpSent_ids (settings : ClientSettings) (writes : List Write) (s : UdpClient) :
    (udpSent settings s writes).map (·.packetID) = idsFrom s.reportstruct.packetID (sentBefore writes) ∧
      (runUDPClient settings s writes).reportstruct.packetID = s.reportstruct.packetID + sentBefore writes -
        (if writes.any (·.result.isFatal) then 1 else 0) := by
  induction writes generalizing s with
  | nil => exact ⟨rfl, by simp [runUDPClient, sentBefore]⟩
  | cons write writes ih =>
    cases hfatal : write.result.isFatal with
    | true =>
      have hzero : sentBefore (write :: writes) = 0 := by simp [sentBefore, hfatal]
      rw [udpSent_fatal settings s writes hfatal, runUDPClient_fatal settings s writes hfatal, hzero]
      exact ⟨rfl, by simp [hfatal]⟩
    | false =>
      have hmore : sentBefore (write :: writes) = write.result.count + sentBefore writes := by
        simp [sentBefore, hfatal]
      obtain ⟨hids, hlast⟩ := ih (udpIteration settings s write)
      rw [udpIteration_packetID] at hids hlast
      rw [udpSent_cons settings s writes hfatal, runUDPClient_cons settings s writes hfatal, hmore, hlast]
      refine ⟨?_, ?_⟩
      · rw [List.map_append, WriteResult.sent_ids, hids, idsFrom_append]
      · rw [List.any_cons, hfatal, Bool.false_or]
        push_cast
        omega

/-- A write of a frame moves the id by what it sent. -/
theorem isochWrite_packetID (settings : ClientSettings) (frameid : Int) (s : UdpClient) (bytecnt : Int)
    (write : Write) : (isochWrite settings frameid s bytecnt write).1.reportstruct.packetID =
      s.reportstruct.packetID + write.result.count := by
  unfold isochWrite
  cases write.result with
  | accepted len => rfl
  | failed fatal =>
    show s.reportstruct.packetID - 1 + 1 = s.reportstruct.packetID + 0
    omega

theorem isochFrameSent_ids (settings : ClientSettings) (frameid : Int) (writes : List Write) (s : UdpClient)
    (bytecnt : Int) (fatalwriteErr : Bool) :
    ∃ m, (isochFrameSent settings frameid s bytecnt writes).map (·.packetID) = idsFrom s.reportstruct.packetID m ∧
      (isochFrame settings frameid s bytecnt fatalwriteErr writes).1.reportstruct.packetID =
        s.reportstruct.packetID + m := by
  induction writes generalizing s bytecnt fatalwriteErr with
  | nil => exact ⟨0, rfl, (add_zero _).symm⟩
  | cons write writes ih =>
    unfold isochFrameSent isochFrame
    by_cases hmore : bytecnt > 0
    · obtain ⟨m, hids, hlast⟩ := ih (isochWrite settings frameid s bytecnt write).1
        (isochWrite settings frameid s bytecnt write).2.1
        (fatalwriteErr || (isochWrite settings frameid s bytecnt write).2.2)
      rw [isochWrite_packetID] at hids hlast
      refine ⟨write.result.count + m, ?_, ?_⟩
      · rw [if_pos hmore, List.map_append, WriteResult.sent_ids, hids, idsFrom_append]
      · rw [if_pos hmore]
        refine hlast.trans ?_
        push_cast
        omega
    · refine ⟨0, ?_, ?_⟩
      · rw [if_neg hmore]
        rfl
      · rw [if_neg hmore]
        exact (add_zero _).symm

theorem isochronousSent_ids (settings : ClientSettings) (frames : List Frame) (s : UdpClient) :
    ∃ m, (isochronousSent settings s frames).map (·.packetID) = idsFrom s.reportstruct.packetID m ∧
      (runUDPIsochronous settings s frames).reportstruct.packetID = s.reportstruct.packetID + m := by
  induction frames generalizing s with
  | nil => exact ⟨0, rfl, (add_zero _).symm⟩
  | cons frame frames ih =>
    obtain ⟨m, hids, hlast⟩ := isochFrameSent_ids settings frame.frameid frame.writes
      { s with reportstruct := { s.reportstruct with burstsize := frame.burstsize settings } }
      (frame.burstsize settings) false
    simp only [isochronousSent, runUDPIsochronous]
    split
    · exact ⟨m, by rw [List.append_nil, hids], hlast⟩
    · obtain ⟨k, hids', hlast'⟩ := ih (isochFrame settings frame.frameid
        { s with reportstruct := { s.reportstruct with burstsize := frame.burstsize settings } }
        (frame.burstsize settings) false frame.writes).1
      rw [hlast] at hids' hlast'
      refine ⟨m + k, ?_, ?_⟩
      · rw [List.map_append, hids, hids', idsFrom_append]
      · rw [hlast']
        push_cast
        omega

/-! ## The datagrams of a client -/

/-- A fatal write error ended the loop with the id still taken back. -/
def SendLoop.endsBack : SendLoop → Bool
  | .udp writes => writes.any (·.result.isFatal)
  | .isochronous _ => false

/-- How many datagrams the first payload is. -/
def firstCount (first : Option WriteResult) : Nat := first.elim 0 (·.count)

theorem startSynch_packetID (mAmount : Int) (startTime : Timeval) (first : Option WriteResult) :
    (initTrafficLoop (startSynch (newClient mAmount) startTime first)).reportstruct.packetID =
      1 + (firstCount first : Int) := by
  cases first with
  | none => rfl
  | some result =>
    cases result with
    | accepted len => rfl
    | failed fatal => rfl

/-- Before the FIN the datagrams are numbered from 1 on. -/
theorem dataSent_ids (settings : ClientSettings) (mAmount : Int) (startTime : Timeval) (first : Option WriteResult)
    (loop : SendLoop) :
    ∃ n, (dataSent settings mAmount startTime first loop).map (·.packetID) = idsFrom 1 n ∧
      (runClient settings mAmount startTime first loop).reportstruct.packetID =
        1 + n - (if loop.endsBack then 1 else 0) ∧
      ∀ writes, loop = .udp writes → n = firstCount first + sentBefore writes := by
  have hstart := startSynch_packetID mAmount startTime first
  have hfirst : (first.elim [] (·.sent (newClient mAmount).reportstruct.packetID)).map (·.packetID) =
      idsFrom 1 (firstCount first) := by
    cases first with
    | none => rfl
    | some result => exact WriteResult.sent_ids result 1
  unfold dataSent runClient
  rw [List.map_append, hfirst]
  cases loop with
  | udp writes =>
    obtain ⟨hids, hlast⟩ := udpSent_ids settings writes (initTrafficLoop (startSynch (newClient mAmount) startTime first))
    rw [hstart] at hids hlast
    refine ⟨firstCount first + sentBefore writes, ?_, ?_, ?_⟩
    · rw [loopSent, hids, idsFrom_append]
    · refine hlast.trans ?_
      rw [SendLoop.endsBack]
      push_cast
      omega
    · rintro writes' h
      cases h
      rfl
  | isochronous frames =>
    obtain ⟨m, hids, hlast⟩ :=
      isochronousSent_ids settings frames (initTrafficLoop (startSynch (newClient mAmount) startTime first))
    rw [hstart] at hids hlast
    refine ⟨firstCount first + m, ?_, ?_, ?_⟩
    · rw [loopSent, hids, idsFrom_append]
    · refine hlast.trans ?_
      rw [SendLoop.endsBack]
      push_cast
      simp
      omega
    · rintro writes' h
      cases h

end Iperf2.Traffic
