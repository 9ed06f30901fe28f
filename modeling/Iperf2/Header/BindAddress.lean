import Iperf2.Header.Types
import Iperf2.Lib.CString

/-!
# Bind addresses

`Settings_ModalOptions` takes the argument of `-B` apart where it stands: a device behind `%`, then a port. The port of
an IPv6 address stands behind its brackets, and it is looked for where `strip_v6_brackets` has moved the address to.

* `isv6BracketedPort`, `isv4Port`, `modalLocalhost` : the code;
* `BindArg` : an argument as it is documented; `BindArg.text`;
* `secondToken_last`, `secondToken_cut`, `isv6BracketedPort_bracket` : what the cuts leave;
* `bindRight_ipv4`, `bindRight_ipv4_V`, `not_bindRight_ipv6`, `bindRight_ipv6_V` : what is left of an argument;
* `bind_right_iff` : the arguments that are taken apart as they are documented.
-/

namespace Iperf2.Header
open CString Report

/-! ## The code -/

/-- The settings that have to do with `-B`. A string is the list of its characters, and `NULL` is `none`. -/
structure BindSettings where
  mThreadMode : ThreadMode
  isIPV6 : Bool
  mLocalhost : Option (List Char)
  mIfrname : Option (List Char)
  mBindPort : BitVec 16

/-- `((results = strtok(buf, delims)) != NULL) && ((results = strtok(NULL, delims)) != NULL)` -/
def secondToken (t : Tokens) (delims : List Char) : Option Nat × Tokens :=
  match strtok t (some 0) delims with
  | (none, t) => (none, t)
  | (some _, t) => strtok t none delims

/-- `strip_v6_brackets` -/
def stripV6Brackets (t : Tokens) : Tokens :=
  if charAt t.buf 0 = '[' then
    match strtok t (some 0) [']'] with
    | (none, t) => t
    | (some _, t) => { t with buf := shift t.buf (cstr t.buf 0).length }
  else t

/-- `isv6_bracketed_port` -/
def isv6BracketedPort (t : Tokens) : Option Nat × Tokens :=
  if charAt t.buf 0 = '[' then
    match strtok t (some 0) [']'] with
    | (none, t) => (none, t)
    | (some results, t) =>
      let t := stripV6Brackets t
      if charAt t.buf results = ':' then (some (results + 1), t) else (none, t)
  else (none, t)

/-- `isv4_port` -/
def isv4Port (t : Tokens) : Option Nat × Tokens := secondToken t [':']

/-- The part of `Settings_ModalOptions` that parses `-B`. It ends the program if `SockAddr_setHostname` finds no
address, and `resolves` says for which families and hosts there is one. -/
def modalLocalhost (resolves : Bool → List Char → Bool) (s : BindSettings) : Option BindSettings :=
  match s.mLocalhost with
  | none => some s
  | some mLocalhost =>
    -- `new char[ strlen(optarg) + 1 ]`
    let device := secondToken ⟨mLocalhost ++ [nul], 0⟩ ['%']
    let mIfrname :=
      match device.1 with
      | none => s.mIfrname
      -- the client cannot set a bind device via -B
      | some results => if s.mThreadMode = .client then none else some (cstr device.2.buf results)
    let port := if s.isIPV6 then isv6BracketedPort device.2 else isv4Port device.2
    let mBindPort :=
      match port.1 with
      | none => s.mBindPort
      | some results =>
        if s.mThreadMode = .client then BitVec.ofInt 16 (atoi (cstr port.2.buf results)) else s.mBindPort
    let mLocalhost := cstr port.2.buf 0
    if resolves s.isIPV6 mLocalhost then some { s with
      mLocalhost := some mLocalhost
      mIfrname
      mBindPort }
    else none

/-! ## Arguments -/

/-- Digits and dots. -/
structure Ipv4Text where
  text : List Char
  hne : text ≠ []
  hchars : ∀ c ∈ text, c.isDigit = true ∨ c = '.'

def isHexDigit (c : Char) : Bool := c.isDigit || ('a' ≤ c && c ≤ 'f') || ('A' ≤ c && c ≤ 'F')

/-- Groups of hexadecimal digits between colons, perhaps with an IPv4 address. A colon at the start is not alone. -/
structure Ipv6Text where
  text : List Char
  hchars : ∀ c ∈ text, isHexDigit c = true ∨ c = ':' ∨ c = '.'
  hcolon : ':' ∈ text
  hstart : ∀ rest, text = ':' :: rest → ∃ rest', rest = ':' :: rest'

structure PortText where
  text : List Char
  hne : text ≠ []
  hdigits : ∀ c ∈ text, c.isDigit = true
  hlt : decimal text < 2 ^ 16

structure DeviceText where
  text : List Char
  hne : text ≠ []
  hpercent : '%' ∉ text
  hnul : nul ∉ text

inductive HostText
  | ipv4 (addr : Ipv4Text)
  | ipv6 (addr : Ipv6Text)

/-- `192.168.1.1:6001%eth0` or `[2001:e30:1401:2:d46e:b891:3082:b939]:6001%eth0`, with or without port and device. -/
structure BindArg where
  host : HostText
  port : Option PortText
  device : Option DeviceText

/-- The bare address. -/
def HostText.address : HostText → List Char
  | .ipv4 addr => addr.text
  | .ipv6 addr => addr.text

/-- The address as it stands in the argument. -/
def HostText.argument : HostText → List Char
  | .ipv4 addr => addr.text
  | .ipv6 addr => '[' :: (addr.text ++ [']'])

namespace BindArg

def portPart (arg : BindArg) : List Char :=
  match arg.port with
  | none => []
  | some port => ':' :: port.text

def devicePart (arg : BindArg) : List Char :=
  match arg.device with
  | none => []
  | some device => '%' :: device.text

def text (arg : BindArg) : List Char := arg.host.argument ++ arg.portPart ++ arg.devicePart

/-- The port to bind to. -/
def bindPort (arg : BindArg) (mBindPort : BitVec 16) : BitVec 16 :=
  match arg.port with
  | none => mBindPort
  | some port => BitVec.ofNat 16 (decimal port.text)

/-- The settings of a client with this argument. -/
def settings (arg : BindArg) (isIPV6 : Bool) (mIfrname : Option (List Char)) (mBindPort : BitVec 16) :
    BindSettings where
  mThreadMode := .client
  isIPV6
  mLocalhost := some arg.text
  mIfrname
  mBindPort

end BindArg

/-! ## Cuts -/

section
variable {s s' rest : List Char} {d : Char} {delims : List Char} {saved : Nat}

/-- There is only one token. -/
theorem secondToken_last (hne : s ≠ []) (hnul : nul ∉ s) (hs : ∀ c ∈ s, c ∉ delims) :
    secondToken ⟨s ++ nul :: rest, saved⟩ delims = (none, ⟨s ++ nul :: rest, s.length⟩) := by
  rw [secondToken, strtok_start_last hne hnul hs]
  exact strtok_none rfl

/-- There are two tokens. The first one ends where the delimiter was. -/
theorem secondToken_cut (hne : s ≠ []) (hnul : nul ∉ s) (hs : ∀ c ∈ s, c ∉ delims) (hd : d ∈ delims)
    (hdnul : d ≠ nul) (hne' : s' ≠ []) (hnul' : nul ∉ s') (hs' : ∀ c ∈ s', c ∉ delims) :
    secondToken ⟨s ++ d :: (s' ++ nul :: rest), saved⟩ delims =
      (some (s.length + 1), ⟨s ++ nul :: (s' ++ nul :: rest), s.length + 1 + s'.length⟩) := by
  have hlen : (s ++ [nul]).length = s.length + 1 := by rw [List.length_append, List.length_singleton]
  have hsecond := @strtok_last (s ++ [nul]) s' rest delims (s.length + 1) none hlen.symm hne' hnul' hs'
  rw [hlen, List.append_assoc, List.singleton_append] at hsecond
  rw [secondToken, strtok_start_cut hne hnul hs hd hdnul]
  exact hsecond

/-- The first character of a first token stays. -/
theorem secondToken_charAt (hne : s ≠ []) (hnul : nul ∉ s) (hs : ∀ c ∈ s, c ∉ delims) (hd : d ∈ delims)
    (hdnul : d ≠ nul) :
    charAt (secondToken ⟨s ++ d :: rest, saved⟩ delims).2.buf 0 = charAt s 0 := by
  rw [secondToken, strtok_start_cut hne hnul hs hd hdnul]
  refine (strtok_frame _ (Nat.succ_pos _)).trans ?_
  cases s with
  | nil => exact absurd rfl hne
  | cons c s => rfl

/-- The address is moved to the front, and what is looked at for the colon of the port is its first character. -/
theorem isv6BracketedPort_bracket (rest : List Char) (saved : Nat) (hne : s ≠ []) (hnul : nul ∉ s) (hs : ']' ∉ s) :
    ∃ saved', isv6BracketedPort ⟨'[' :: (s ++ ']' :: rest), saved⟩ =
      (if charAt s 0 = ':' then some 1 else none, ⟨s ++ nul :: nul :: rest, saved'⟩) := by
  have hnul' : nul ∉ '[' :: s := by
    rw [List.mem_cons, not_or]
    exact ⟨by decide, hnul⟩
  have htoken : ∀ c ∈ '[' :: s, c ∉ [']'] := by
    intro c hc
    rw [List.mem_singleton]
    rintro rfl
    rcases List.mem_cons.mp hc with h | h
    · exact absurd h (by decide)
    · exact hs h
  have hne' : '[' :: s ≠ [] := List.cons_ne_nil '[' s
  have hcut := @strtok_start_cut ('[' :: s) rest [']'] ']' saved hne' hnul' htoken (List.mem_singleton_self _)
    (by decide)
  have hlast := @strtok_start_last ('[' :: s) rest [']'] (s.length + 1 + 1) hne' hnul' htoken
  have hstr := @cstr_start ('[' :: s) rest hnul'
  rw [List.cons_append, List.cons_append, List.length_cons] at hcut
  rw [List.cons_append, List.length_cons] at hlast
  rw [List.cons_append] at hstr
  have hstrip : stripV6Brackets ⟨'[' :: (s ++ nul :: rest), s.length + 1 + 1⟩ =
      ⟨s ++ nul :: nul :: rest, s.length + 1⟩ := by
    unfold stripV6Brackets
    rw [charAt_cons, if_pos rfl, hlast]
    dsimp only
    rw [hstr, List.length_cons, shift_string]
  have hchar : charAt (s ++ nul :: nul :: rest) 0 = charAt s 0 := by
    cases s with
    | nil => exact absurd rfl hne
    | cons c s => rfl
  refine ⟨s.length + 1, ?_⟩
  unfold isv6BracketedPort
  rw [charAt_cons, if_pos rfl, hcut]
  dsimp only
  rw [hstrip, hchar]
  split <;> rfl

theorem isv6BracketedPort_plain {t : Tokens} (h : charAt t.buf 0 ≠ '[') : isv6BracketedPort t = (none, t) := by
  unfold isv6BracketedPort
  rw [if_neg h]

end

/-! ## Characters of an argument -/

/-- No address has such a character in it. -/
theorem Ipv4Text.not_mem (addr : Ipv4Text) {c : Char} (hdigit : c.isDigit = false) (hdot : c ≠ '.') :
    c ∉ addr.text := by
  intro hc
  rcases addr.hchars c hc with h | h
  · rw [hdigit] at h
    cases h
  · exact hdot h

theorem Ipv6Text.not_mem (addr : Ipv6Text) {c : Char} (hhex : isHexDigit c = false) (hcolon : c ≠ ':')
    (hdot : c ≠ '.') : c ∉ addr.text := by
  intro hc
  rcases addr.hchars c hc with h | h | h
  · rw [hhex] at h
    cases h
  · exact hcolon h
  · exact hdot h

theorem Ipv6Text.ne_nil (addr : Ipv6Text) : addr.text ≠ [] := List.ne_nil_of_mem addr.hcolon

theorem PortText.not_mem (port : PortText) {c : Char} (hdigit : c.isDigit = false) : c ∉ port.text := by
  intro hc
  have h := port.hdigits c hc
  rw [hdigit] at h
  cases h

namespace BindArg

/-- The address and the port, in front of the device. -/
def front (arg : BindArg) : List Char := arg.host.argument ++ arg.portPart

/-- A character that is in none of the parts. -/
theorem not_mem_front (arg : BindArg) {c : Char} (hdigit : c.isDigit = false) (hhex : isHexDigit c = false)
    (hc : c ∉ ['.', ':', '[', ']']) : c ∉ arg.front := by
  simp only [List.mem_cons, List.not_mem_nil, or_false, not_or] at hc
  obtain ⟨hdot, hcolon, hopen, hclose⟩ := hc
  unfold front portPart
  rw [List.mem_append, not_or]
  constructor
  · cases arg.host with
    | ipv4 addr => exact addr.not_mem hdigit hdot
    | ipv6 addr =>
      have haddr := addr.not_mem hhex hcolon hdot
      simp only [HostText.argument, List.mem_cons, List.mem_append, List.not_mem_nil, or_false, not_or]
      exact ⟨hopen, haddr, hclose⟩
  · cases arg.port with
    | none => exact List.not_mem_nil
    | some port =>
      rw [List.mem_cons, not_or]
      exact ⟨hcolon, port.not_mem hdigit⟩

theorem front_ne_nil (arg : BindArg) : arg.front ≠ [] := by
  unfold front
  cases arg.host with
  | ipv4 addr => exact List.append_ne_nil_of_left_ne_nil addr.hne _
  | ipv6 addr => exact List.cons_ne_nil _ _

/-- The device is cut off. -/
theorem device_cut (arg : BindArg) :
    ∃ rest saved, (secondToken ⟨arg.text ++ [nul], 0⟩ ['%']).2 = ⟨arg.front ++ nul :: rest, saved⟩ := by
  have hnul : nul ∉ arg.front := arg.not_mem_front (by decide) (by decide) (by decide)
  have hfront : ∀ c ∈ arg.front, c ∉ ['%'] := by
    intro c hc
    rw [List.mem_singleton]
    rintro rfl
    exact arg.not_mem_front (by decide) (by decide) (by decide) hc
  have htext : arg.text = arg.front ++ arg.devicePart := rfl
  rw [htext]
  unfold devicePart
  cases arg.device with
  | none =>
    rw [List.append_nil, secondToken_last arg.front_ne_nil hnul hfront]
    exact ⟨[], _, rfl⟩
  | some device =>
    have hdevice : ∀ c ∈ device.text, c ∉ ['%'] := by
      intro c hc
      rw [List.mem_singleton]
      rintro rfl
      exact device.hpercent hc
    rw [List.append_assoc, List.cons_append,
      secondToken_cut arg.front_ne_nil hnul hfront (List.mem_singleton_self _) (by decide) device.hne device.hnul
        hdevice]
    exact ⟨_, _, rfl⟩

end BindArg

/-! ## What is left of an argument -/

/-- The parsing of `-B` leaves the bare address, and the port if there is one. -/
def BindRight (resolves : Bool → List Char → Bool) (arg : BindArg) (isIPV6 : Bool) (mIfrname : Option (List Char))
    (mBindPort : BitVec 16) : Prop :=
  ∃ s', modalLocalhost resolves (arg.settings isIPV6 mIfrname mBindPort) = some s' ∧
    s'.mLocalhost = some arg.host.address ∧ s'.mBindPort = arg.bindPort mBindPort

/-- The port that a client takes from what one of the parsers found. -/
def portFound (mBindPort : BitVec 16) (port : Option Nat × Tokens) : BitVec 16 :=
  match port.1 with
  | none => mBindPort
  | some results => BitVec.ofInt 16 (atoi (cstr port.2.buf results))

section
variable {resolves : Bool → List Char → Bool} {arg : BindArg} {isIPV6 : Bool} {mIfrname : Option (List Char)}
  {mBindPort : BitVec 16}

/-- The parsers start with address and port, and something behind them. -/
theorem bindRight_iff (resolves : Bool → List Char → Bool) (arg : BindArg) (isIPV6 : Bool)
    (mIfrname : Option (List Char)) (mBindPort : BitVec 16) : ∃ rest saved, ∀ port,
    (if isIPV6 then isv6BracketedPort ⟨arg.front ++ nul :: rest, saved⟩
      else isv4Port ⟨arg.front ++ nul :: rest, saved⟩) = port →
    (BindRight resolves arg isIPV6 mIfrname mBindPort ↔
      (cstr port.2.buf 0 = arg.host.address ∧ portFound mBindPort port = arg.bindPort mBindPort) ∧
        resolves isIPV6 arg.host.address = true) := by
  obtain ⟨rest, saved, hdevice⟩ := arg.device_cut
  refine ⟨rest, saved, fun port hport => ?_⟩
  unfold BindRight modalLocalhost BindArg.settings
  dsimp only
  rw [hdevice, hport]
  constructor
  · rintro ⟨s', hs', haddress, hbind⟩
    split at hs'
    · rename_i hresolves
      cases hs'
      have haddress' : cstr port.2.buf 0 = arg.host.address := Option.some.inj haddress
      rw [haddress'] at hresolves
      exact ⟨⟨haddress', hbind⟩, hresolves⟩
    · cases hs'
  · rintro ⟨⟨haddress, hbind⟩, hresolves⟩
    rw [haddress, if_pos hresolves]
    exact ⟨_, rfl, rfl, hbind⟩

/-- An IPv4 address without `-V` is always taken apart. -/
theorem bindRight_ipv4 {addr : Ipv4Text} (hhost : arg.host = .ipv4 addr) :
    BindRight resolves arg false mIfrname mBindPort ↔ resolves false arg.host.address = true := by
  obtain ⟨rest, saved, hiff⟩ := bindRight_iff resolves arg false mIfrname mBindPort
  have hnul : nul ∉ addr.text := addr.not_mem (by decide) (by decide)
  have hcolon : ∀ c ∈ addr.text, c ∉ [':'] := by
    intro c hc
    rw [List.mem_singleton]
    rintro rfl
    exact addr.not_mem (by decide) (by decide) hc
  simp only [BindArg.front, BindArg.portPart, BindArg.bindPort, hhost, HostText.argument, HostText.address] at hiff ⊢
  cases hport : arg.port with
  | none =>
    rw [hport] at hiff
    dsimp only at hiff
    rw [List.append_nil] at hiff
    rw [hiff _ (secondToken_last addr.hne hnul hcolon)]
    exact and_iff_right ⟨cstr_start hnul, rfl⟩
  | some port =>
    have hnul' : nul ∉ port.text := port.not_mem (by decide)
    have hcolon' : ∀ c ∈ port.text, c ∉ [':'] := by
      intro c hc
      rw [List.mem_singleton]
      rintro rfl
      exact port.not_mem (by decide) hc
    rw [hport] at hiff
    dsimp only at hiff
    rw [List.append_assoc, List.cons_append] at hiff
    rw [hiff _ (secondToken_cut addr.hne hnul hcolon (List.mem_singleton_self _) (by decide) port.hne hnul' hcolon')]
    refine and_iff_right ⟨cstr_start hnul, ?_⟩
    have hdigits : cstr (addr.text ++ nul :: (port.text ++ nul :: rest)) (addr.text.length + 1) = port.text := by
      rw [List.append_cons]
      exact cstr_append (by rw [List.length_append, List.length_singleton]) hnul'
    unfold portFound
    dsimp only
    rw [hdigits, atoi_digits port.hne port.hdigits]
    rfl

/-- An IPv4 address with `-V` is not cut at the port. -/
theorem bindRight_ipv4_V {addr : Ipv4Text} (hhost : arg.host = .ipv4 addr) :
    BindRight resolves arg true mIfrname mBindPort ↔ arg.port = none ∧ resolves true arg.host.address = true := by
  obtain ⟨rest, saved, hiff⟩ := bindRight_iff resolves arg true mIfrname mBindPort
  have hnul : nul ∉ arg.front := arg.not_mem_front (by decide) (by decide) (by decide)
  have hfirst : charAt (arg.front ++ nul :: rest) 0 ≠ '[' := by
    have hopen : '[' ∉ addr.text := addr.not_mem (by decide) (by decide)
    unfold BindArg.front
    rw [hhost]
    cases haddr : addr.text with
    | nil => exact absurd haddr addr.hne
    | cons c text =>
      rw [haddr, List.mem_cons, not_or] at hopen
      simp only [HostText.argument, haddr, List.cons_append, charAt_cons]
      exact Ne.symm hopen.1
  rw [hiff _ (isv6BracketedPort_plain hfirst)]
  dsimp only
  rw [cstr_start hnul]
  apply and_congr_left'
  unfold BindArg.front BindArg.portPart BindArg.bindPort portFound
  rw [hhost]
  cases arg.port with
  | none => exact iff_of_true ⟨List.append_nil _, rfl⟩ rfl
  | some port =>
    refine iff_of_false (fun h => ?_) (Option.some_ne_none port)
    have hlength := congrArg List.length h.1
    simp only [HostText.argument, HostText.address, List.length_append, List.length_cons] at hlength
    omega

/-- An IPv6 address without `-V` is cut at its first colon. -/
theorem not_bindRight_ipv6 {addr : Ipv6Text} (hhost : arg.host = .ipv6 addr) :
    ¬ BindRight resolves arg false mIfrname mBindPort := by
  obtain ⟨rest, saved, hiff⟩ := bindRight_iff resolves arg false mIfrname mBindPort
  rw [hiff _ rfl]
  rintro ⟨⟨haddress, -⟩, -⟩
  have hfirst := congrArg (charAt · 0) haddress
  rw [charAt_cstr] at hfirst
  have hopen : '[' ∉ addr.text := addr.not_mem (by decide) (by decide) (by decide)
  have hnul : nul ∉ addr.text := addr.not_mem (by decide) (by decide) (by decide)
  obtain ⟨u, v, huv, hu⟩ := List.eq_append_cons_of_mem addr.hcolon
  have hnul' : nul ∉ '[' :: u := by
    rw [List.mem_cons, not_or]
    exact ⟨by decide, fun h => hnul (by rw [huv]; exact List.mem_append_left _ h)⟩
  have htoken : ∀ c ∈ '[' :: u, c ∉ [':'] := by
    intro c hc
    rw [List.mem_singleton]
    rintro rfl
    rcases List.mem_cons.mp hc with h | h
    · exact absurd h (by decide)
    · exact hu h
  have hfront : arg.front ++ nul :: rest = ('[' :: u) ++ ':' :: (v ++ ']' :: (arg.portPart ++ nul :: rest)) := by
    unfold BindArg.front
    rw [hhost, HostText.argument, huv]
    simp
  have hstay : charAt (isv4Port ⟨arg.front ++ nul :: rest, saved⟩).2.buf 0 = '[' := by
    rw [hfront, isv4Port, secondToken_charAt (List.cons_ne_nil _ _) hnul' htoken (List.mem_singleton_self _) (by decide),
      charAt_cons]
  rw [if_neg Bool.false_ne_true, hstay, hhost] at hfirst
  cases haddr : addr.text with
  | nil => exact addr.ne_nil haddr
  | cons c text =>
    simp only [HostText.address, haddr, charAt_cons] at hfirst
    rw [haddr, ← hfirst] at hopen
    exact hopen List.mem_cons_self

/-- Of an IPv6 address with `-V` the port is not found, or what is behind its own first colon is taken for it. -/
theorem bindRight_ipv6_V {addr : Ipv6Text} (hhost : arg.host = .ipv6 addr) :
    BindRight resolves arg true mIfrname mBindPort ↔
      arg.bindPort mBindPort = (if charAt addr.text 0 = ':' then 0 else mBindPort) ∧
        resolves true arg.host.address = true := by
  obtain ⟨rest, saved, hiff⟩ := bindRight_iff resolves arg true mIfrname mBindPort
  have hnul : nul ∉ addr.text := addr.not_mem (by decide) (by decide) (by decide)
  have hclose : ']' ∉ addr.text := addr.not_mem (by decide) (by decide) (by decide)
  have hfront : arg.front ++ nul :: rest = '[' :: (addr.text ++ ']' :: (arg.portPart ++ nul :: rest)) := by
    unfold BindArg.front
    rw [hhost, HostText.argument]
    simp
  obtain ⟨saved', hparse⟩ := isv6BracketedPort_bracket (arg.portPart ++ nul :: rest) saved addr.ne_nil hnul hclose
  simp only [hfront, if_true] at hiff
  rw [hiff _ hparse]
  apply and_congr_left'
  have haddress : arg.host.address = addr.text := by
    rw [hhost]
    rfl
  have hport : portFound mBindPort (if charAt addr.text 0 = ':' then some 1 else none,
      ⟨addr.text ++ nul :: nul :: (arg.portPart ++ nul :: rest), saved'⟩) =
        if charAt addr.text 0 = ':' then 0 else mBindPort := by
    split
    · rename_i hcolon
      -- what is behind the first colon is another one
      obtain ⟨rest', haddr⟩ : ∃ rest', addr.text = ':' :: ':' :: rest' := by
        cases haddr : addr.text with
        | nil => exact absurd haddr addr.ne_nil
        | cons c text =>
          rw [haddr, charAt_cons] at hcolon
          obtain ⟨rest', hrest'⟩ := addr.hstart text (by rw [haddr, hcolon])
          exact ⟨rest', by rw [hcolon, hrest']⟩
      have hnul' : nul ∉ ':' :: rest' := by
        rw [haddr] at hnul
        exact fun h => hnul (List.mem_cons_of_mem _ h)
      have hstr : cstr (addr.text ++ nul :: nul :: (arg.portPart ++ nul :: rest)) 1 = ':' :: rest' := by
        rw [haddr]
        exact @cstr_append [':'] (':' :: rest') _ 1 rfl hnul'
      unfold portFound
      dsimp only
      rw [hstr, atoi_of_not_digit (by decide) (by decide) (by decide) (by decide)]
      rfl
    · rfl
  rw [hport, haddress]
  dsimp only
  rw [cstr_start hnul]
  exact (and_iff_right rfl).trans eq_comm

end

/-! ## Arguments that are taken apart -/

/-- IPv4 without `-V`, or without a port. IPv6 with `-V`, if the port is the one that is left: zero if the address
starts with a colon, and the one from before if it does not. -/
def TakenApart (arg : BindArg) (isIPV6 : Bool) (mBindPort : BitVec 16) : Prop :=
  match arg.host, isIPV6 with
  | .ipv4 _, false => True
  | .ipv4 _, true => arg.port = none
  | .ipv6 _, false => False
  | .ipv6 addr, true => arg.bindPort mBindPort = if charAt addr.text 0 = ':' then 0 else mBindPort

/-- **The arguments of `-B` that leave a client with the bare address and the port**, among those that resolve. -/
theorem bind_right_iff (resolves : Bool → List Char → Bool) (arg : BindArg) (isIPV6 : Bool)
    (mIfrname : Option (List Char)) (mBindPort : BitVec 16) :
    BindRight resolves arg isIPV6 mIfrname mBindPort ↔
      TakenApart arg isIPV6 mBindPort ∧ resolves isIPV6 arg.host.address = true := by
  cases hhost : arg.host with
  | ipv4 addr =>
    cases isIPV6 with
    | false =>
      rw [bindRight_ipv4 hhost]
      simp only [TakenApart, hhost, true_and]
    | true =>
      rw [bindRight_ipv4_V hhost]
      simp only [TakenApart, hhost]
  | ipv6 addr =>
    cases isIPV6 with
    | false =>
      simp only [TakenApart, hhost, false_and, iff_false]
      exact not_bindRight_ipv6 hhost
    | true =>
      rw [bindRight_ipv6_V hhost]
      simp only [TakenApart, hhost]

/-- 2001::1 -/
def shortText : List Char := ['2', '0', '0', '1', ':', ':', '1']

theorem shortText_chars : ∀ c ∈ shortText, isHexDigit c = true ∨ c = ':' ∨ c = '.' := by
  intro c hc
  simp only [shortText, List.mem_cons, List.not_mem_nil, or_false] at hc
  rcases hc with rfl | rfl | rfl | rfl | rfl | rfl | rfl <;> decide

theorem shortText_colon : ':' ∈ shortText := by decide

theorem shortText_start : ∀ rest, shortText = ':' :: rest → ∃ rest', rest = ':' :: rest' :=
  fun _ h => absurd (List.cons.inj h).1 (by decide)

def port6001 : List Char := ['6', '0', '0', '1']

theorem port6001_digits : ∀ c ∈ port6001, c.isDigit = true := List.all_eq_true.mp rfl

theorem port6001_lt : decimal port6001 < 2 ^ 16 := by decide

/-- [2001::1]:6001 -/
def shortArg : BindArg where
  host := .ipv6 ⟨shortText, shortText_chars, shortText_colon, shortText_start⟩
  port := some ⟨port6001, List.cons_ne_nil _ _, port6001_digits, port6001_lt⟩
  device := none

/-- Its port is lost. -/
theorem bind_loses_port :
    (modalLocalhost (fun _ _ => true) (shortArg.settings true none 0)).map (fun s => (s.mLocalhost, s.mBindPort)) =
      some (some shortText, 0) ∧
    shortArg.bindPort 0 = 6001 ∧ ¬ BindRight (fun _ _ => true) shortArg true none 0 := by
  refine ⟨by decide +kernel, by decide, ?_⟩
  rw [bindRight_ipv6_V rfl]
  rintro ⟨hport, -⟩
  revert hport
  decide

end Iperf2.Header
