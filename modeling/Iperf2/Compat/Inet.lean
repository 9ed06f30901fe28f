import Iperf2.Lib.Bytes
import Iperf2.Lib.Numeral

/-!
# Texts of IPv4 addresses

The `inet_ntop` and `inet_pton` of a host that has none. A buffer of characters is the text in it, without the zero
byte, and `NULL` or 0 is `none`.

* `inetPton4_iff` : what is accepted is four decimal numbers up to 255, with dots between them, and it is read as these;
* `inetNtop4_read` : every address is printed within the 15 characters of its buffer, and read back.
-/

namespace Iperf2.Compat
open Numeral

/-! ## The source -/

/-- `strchr(digits, ch)`, as an index into the digits. -/
def strchr (digits : List Char) (ch : Char) : Option Nat := digits.idxOf? ch

/-- `sprintf` of `%u`. -/
def sprintfU (n : Nat) : List Char := (digits 10 n).map Nat.digitChar

/-- `inet_ntop4` -/
def inetNtop4 (src : Buf) (size : Nat) : Option (List Char) :=
  let tmp := sprintfU (src 0).toNat ++ '.' :: (sprintfU (src 1).toNat ++ '.' :: (sprintfU (src 2).toNat ++
    '.' :: sprintfU (src 3).toNat))
  if tmp.length ≥ size then none else some tmp

/-- `static const char digits[]` of `inet_pton4`. -/
def decimals : List Char := ['0', '1', '2', '3', '4', '5', '6', '7', '8', '9']

/-- The variables of `inet_pton4`: the octets before `tp`, and the one at it. -/
structure Pton4 where
  tmp : List Nat
  tp : Nat
  sawDigit : Bool
  octets : Nat

/-- The loop of `inet_pton4`. -/
def pton4Loop (s : Pton4) : List Char → Option Pton4
  | [] => some s
  | ch :: src =>
    match strchr decimals ch with
    | some d =>
      let new := s.tp * 10 + d
      if new > 255 then none
      else if s.sawDigit then pton4Loop { s with tp := new } src
      else if s.octets + 1 > 4 then none
      else pton4Loop { s with
        tp := new
        sawDigit := true
        octets := s.octets + 1 } src
    | none =>
      if ch = '.' ∧ s.sawDigit then
        if s.octets = 4 then none
        else pton4Loop { s with
          tmp := s.tmp ++ [s.tp]
          tp := 0
          sawDigit := false } src
      else none

/-- `inet_pton4` -/
def inetPton4 (src : List Char) : Option (List Byte) :=
  match pton4Loop ⟨[], 0, false, 0⟩ src with
  | none => none
  | some s => if s.octets < 4 then none else some ((s.tmp ++ [s.tp]).map (BitVec.ofNat 8))

/-! ## Digits -/

/-- A number as it is written, with leading zeros or not. -/
def text (ds : List Nat) : List Char := ds.map Nat.digitChar

theorem sprintfU_eq (n : Nat) : sprintfU n = text (digits 10 n) := rfl

theorem strchr_decimals {d : Nat} (hd : d < 10) : strchr decimals (Nat.digitChar d) = some d := by
  have h : ∀ d < 10, strchr decimals (Nat.digitChar d) = some d := by decide
  exact h d hd

theorem decimals_strchr {ch : Char} {d : Nat} (h : strchr decimals ch = some d) : d < 10 ∧ ch = Nat.digitChar d := by
  obtain ⟨hlt, hch, -⟩ := List.idxOf?_eq_some_iff.mp h
  refine ⟨hlt, ?_⟩
  have hdigit : ∀ i (hi : i < decimals.length), decimals[i] = Nat.digitChar i := by decide
  exact hch.symm.trans (hdigit d hlt)

theorem strchr_dot : strchr decimals '.' = none := by decide

/-- A decimal number that fits into a byte. -/
structure Octet (ds : List Nat) : Prop where
  ne_nil : ds ≠ []
  mem_lt : ∀ d ∈ ds, d < 10
  value_le : value 10 0 ds ≤ 255

theorem Octet.digits (b : Byte) : Octet (digits 10 b.toNat) := by
  refine ⟨Numeral.ne_nil b.toNat, fun d hd => Numeral.mem_lt (by omega) hd, ?_⟩
  rw [value_digits]
  have hb : b.toNat < 2 ^ 8 := b.isLt
  omega

theorem length_sprintfU (b : Byte) : (sprintfU b.toNat).length ≤ 3 := by
  rw [sprintfU_eq, text, List.length_map]
  have hb : b.toNat < 2 ^ 8 := b.isLt
  exact Numeral.length_le (by omega) (by omega) (by omega)

/-- Four numbers with dots between them. -/
def quad (a b c d : List Nat) : List Char := text a ++ '.' :: (text b ++ '.' :: (text c ++ '.' :: text d))

/-! ## What is accepted -/

/-- What `inet_pton4` knows of the characters it has read: the numbers in front of the last dot, and the digits behind
it. -/
structure Pton4.Seen (s : Pton4) (before : List Char) (fields : List (List Nat)) (ds : List Nat) : Prop where
  before_eq : before = fields.flatMap (fun f => text f ++ ['.']) ++ text ds
  fields_ok : ∀ f ∈ fields, Octet f
  ds_lt : ∀ d ∈ ds, d < 10
  tmp : s.tmp = fields.map (value 10 0)
  tp : s.tp = value 10 0 ds
  tp_le : s.tp ≤ 255
  sawDigit : s.sawDigit = true ↔ ds ≠ []
  octets : s.octets = fields.length + if s.sawDigit then 1 else 0
  fields_le : fields.length ≤ 3

theorem value_append_singleton (ds : List Nat) (d : Nat) : value 10 0 (ds ++ [d]) = value 10 0 ds * 10 + d := by
  rw [value, List.foldl_append]
  rfl

namespace Pton4.Seen

variable {s : Pton4} {before : List Char} {fields : List (List Nat)} {ds : List Nat} (hseen : s.Seen before fields ds)
include hseen

theorem digit {d : Nat} (hlt : d < 10) (hnew : s.tp * 10 + d ≤ 255) :
    Seen ⟨s.tmp, s.tp * 10 + d, true, if s.sawDigit then s.octets else s.octets + 1⟩
      (before ++ [Nat.digitChar d]) fields (ds ++ [d]) where
  before_eq := by
    rw [hseen.before_eq, List.append_assoc, text, text, List.map_append, List.map_singleton]
  fields_ok := hseen.fields_ok
  ds_lt := by
    intro e he
    rcases List.mem_append.mp he with he | he
    · exact hseen.ds_lt e he
    · rw [List.mem_singleton.mp he]
      exact hlt
  tmp := hseen.tmp
  tp := by
    rw [value_append_singleton, hseen.tp]
  tp_le := hnew
  sawDigit := ⟨fun _ => List.append_ne_nil_of_right_ne_nil ds (List.cons_ne_nil d []), fun _ => rfl⟩
  octets := by
    have hoct := hseen.octets
    split <;> simp_all
  fields_le := hseen.fields_le

/-- The number in front of the end of what was read. -/
theorem octet (hsaw : s.sawDigit = true) : Octet ds :=
  ⟨hseen.sawDigit.mp hsaw, hseen.ds_lt, hseen.tp ▸ hseen.tp_le⟩

theorem dot (hsaw : s.sawDigit = true) (hfour : s.octets ≠ 4) :
    Seen ⟨s.tmp ++ [s.tp], 0, false, s.octets⟩ (before ++ ['.']) (fields ++ [ds]) [] := by
  have hoct := hseen.octets
  have hle := hseen.fields_le
  rw [if_pos hsaw] at hoct
  exact {
    before_eq := by
      rw [hseen.before_eq, List.flatMap_append, List.flatMap_singleton, text, text, List.map_nil, List.append_nil,
        List.append_assoc]
    fields_ok := by
      intro f hf
      rcases List.mem_append.mp hf with hf | hf
      · exact hseen.fields_ok f hf
      · rw [List.mem_singleton.mp hf]
        exact hseen.octet hsaw
    ds_lt := List.forall_mem_nil _
    tmp := by
      rw [List.map_append, List.map_singleton, ← hseen.tmp, ← hseen.tp]
    tp := rfl
    tp_le := Nat.zero_le 255
    sawDigit := by
      constructor
      · intro hfalse
        cases hfalse
      · exact fun hnil => absurd rfl hnil
    octets := by
      rw [List.length_append, List.length_singleton, hoct]
      rfl
    fields_le := by
      rw [List.length_append, List.length_singleton]
      omega }

/-- At the end of a text with four octets. -/
theorem four (hoct : 4 ≤ s.octets) : ∃ a b c, fields = [a, b, c] ∧ Octet ds := by
  have hocts := hseen.octets
  have hle := hseen.fields_le
  have hsaw : s.sawDigit = true := by
    by_contra hno
    rw [if_neg hno] at hocts
    omega
  rw [if_pos hsaw] at hocts
  obtain ⟨a, b, c, h⟩ := List.length_eq_three.mp (show fields.length = 3 by omega)
  exact ⟨a, b, c, h, hseen.octet hsaw⟩

end Pton4.Seen

/-- The invariant of the loop. -/
theorem pton4Loop_seen {s s' : Pton4} {src before : List Char} {fields : List (List Nat)} {ds : List Nat}
    (hseen : s.Seen before fields ds) (h : pton4Loop s src = some s') :
    ∃ fields' ds', s'.Seen (before ++ src) fields' ds' := by
  induction src generalizing s before fields ds with
  | nil =>
    obtain rfl : s = s' := Option.some.inj h
    rw [List.append_nil]
    exact ⟨fields, ds, hseen⟩
  | cons ch src ih =>
    rw [show before ++ ch :: src = before ++ [ch] ++ src by rw [List.append_assoc, List.singleton_append]]
    unfold pton4Loop at h
    split at h
    · -- a digit, the first one of a number or not
      rename_i d hd
      obtain ⟨hlt, rfl⟩ := decimals_strchr hd
      simp only at h
      split at h
      · cases h
      · rename_i hnew
        have hdigit := hseen.digit hlt (Nat.le_of_not_lt hnew)
        split at h
        · rename_i hsaw
          rw [if_pos hsaw, ← hsaw] at hdigit
          exact ih hdigit h
        · rename_i hsaw
          rw [if_neg hsaw] at hdigit
          split at h
          · cases h
          · exact ih hdigit h
    · split at h
      · -- a dot behind a number
        rename_i hdot
        obtain ⟨rfl, hsaw⟩ := hdot
        split at h
        · cases h
        · rename_i hfour
          exact ih (hseen.dot hsaw hfour) h
      · cases h

/-! ## What is read -/

/-- The digits of a number that fits into a byte. -/
theorem pton4Loop_digits (tmp : List Nat) (o : Nat) (ds : List Nat) (rest : List Char) :
    ∀ tp, (∀ d ∈ ds, d < 10) → value 10 tp ds ≤ 255 →
      pton4Loop ⟨tmp, tp, true, o⟩ (text ds ++ rest) = pton4Loop ⟨tmp, value 10 tp ds, true, o⟩ rest := by
  induction ds with
  | nil =>
    intro tp _ _
    rfl
  | cons d ds ih =>
    intro tp hlt hle
    rw [value_cons] at hle ⊢
    have hnew := Numeral.le_value (b := 10) (by omega) (tp * 10 + d) ds
    rw [← ih _ (fun e he => hlt e (List.mem_cons_of_mem d he)) hle]
    change pton4Loop _ (Nat.digitChar d :: (text ds ++ rest)) = _
    rw [pton4Loop, strchr_decimals (hlt d List.mem_cons_self)]
    simp only
    rw [if_neg (by omega), if_pos trivial]

/-- A whole number. -/
theorem pton4Loop_octet (tmp : List Nat) {o : Nat} (ho : o < 4) {ds : List Nat} (hds : Octet ds) (rest : List Char) :
    pton4Loop ⟨tmp, 0, false, o⟩ (text ds ++ rest) = pton4Loop ⟨tmp, value 10 0 ds, true, o + 1⟩ rest := by
  obtain ⟨hne, hlt, hle⟩ := hds
  cases ds with
  | nil => exact absurd rfl hne
  | cons d ds =>
    rw [value_cons] at hle ⊢
    have hnew := Numeral.le_value (b := 10) (by omega) (0 * 10 + d) ds
    rw [← pton4Loop_digits tmp (o + 1) ds rest _ (fun e he => hlt e (List.mem_cons_of_mem d he)) hle]
    change pton4Loop _ (Nat.digitChar d :: (text ds ++ rest)) = _
    rw [pton4Loop, strchr_decimals (hlt d List.mem_cons_self)]
    simp only
    rw [if_neg (by omega), if_neg (by decide), if_neg (by omega)]

theorem pton4Loop_dot (tmp : List Nat) (tp : Nat) {o : Nat} (ho : o ≠ 4) (rest : List Char) :
    pton4Loop ⟨tmp, tp, true, o⟩ ('.' :: rest) = pton4Loop ⟨tmp ++ [tp], 0, false, o⟩ rest := by
  rw [pton4Loop, strchr_dot]
  simp only
  rw [if_pos ⟨trivial, trivial⟩, if_neg ho]

theorem inetPton4_quad {a b c d : List Nat} (ha : Octet a) (hb : Octet b) (hc : Octet c) (hd : Octet d) :
    inetPton4 (quad a b c d) = some ([a, b, c, d].map fun f => BitVec.ofNat 8 (value 10 0 f)) := by
  unfold inetPton4 quad
  rw [pton4Loop_octet [] (by omega) ha, pton4Loop_dot _ _ (by omega), pton4Loop_octet _ (by omega) hb,
    pton4Loop_dot _ _ (by omega), pton4Loop_octet _ (by omega) hc, pton4Loop_dot _ _ (by omega),
    ← List.append_nil (text d), pton4Loop_octet _ (by omega) hd]
  rfl

/-- What is accepted is four decimal numbers up to 255 with dots between them, with leading zeros or not, and nothing
else; the bytes are the numbers. -/
theorem inetPton4_iff (src : List Char) (dst : List Byte) : inetPton4 src = some dst ↔
    ∃ a b c d, Octet a ∧ Octet b ∧ Octet c ∧ Octet d ∧ src = quad a b c d ∧
      dst = [a, b, c, d].map fun f => BitVec.ofNat 8 (value 10 0 f) := by
  constructor
  · intro h
    unfold inetPton4 at h
    split at h
    · cases h
    · rename_i s hs
      split at h
      · cases h
      · rename_i hfour
        have hstart : (⟨[], 0, false, 0⟩ : Pton4).Seen [] [] [] :=
          ⟨rfl, List.forall_mem_nil _, List.forall_mem_nil _, rfl, rfl, Nat.zero_le 255, by decide, rfl, by decide⟩
        obtain ⟨fields, ds, hseen⟩ := pton4Loop_seen hstart hs
        rw [List.nil_append] at hseen
        obtain ⟨a, b, c, rfl, hlast⟩ := hseen.four (Nat.le_of_not_lt hfour)
        refine ⟨a, b, c, ds, hseen.fields_ok a (by simp), hseen.fields_ok b (by simp), hseen.fields_ok c (by simp),
          hlast, ?_, ?_⟩
        · rw [hseen.before_eq]
          simp [quad]
        · rw [← Option.some.inj h, hseen.tmp, hseen.tp]
          rfl
  · rintro ⟨a, b, c, d, ha, hb, hc, hd, rfl, rfl⟩
    exact inetPton4_quad ha hb hc hd

/-! ## Round trip -/

theorem inetNtop4_eq (src : Buf) {size : Nat} (hsize : 16 ≤ size) : inetNtop4 src size = some
    (quad (digits 10 (src 0).toNat) (digits 10 (src 1).toNat) (digits 10 (src 2).toNat) (digits 10 (src 3).toNat)) := by
  have h0 := length_sprintfU (src 0)
  have h1 := length_sprintfU (src 1)
  have h2 := length_sprintfU (src 2)
  have h3 := length_sprintfU (src 3)
  unfold inetNtop4
  simp only
  rw [if_neg]
  · rfl
  · simp only [List.length_append, List.length_cons]
    omega

/-- Every address fits into the buffer of the text, and what is printed is read back. -/
theorem inetNtop4_read (src : Buf) {size : Nat} (hsize : 16 ≤ size) :
    ∃ dst, inetNtop4 src size = some dst ∧ dst.length < 16 ∧ inetPton4 dst = some (src.window 0 4) := by
  refine ⟨_, inetNtop4_eq src hsize, ?_, ?_⟩
  · have h0 := length_sprintfU (src 0)
    have h1 := length_sprintfU (src 1)
    have h2 := length_sprintfU (src 2)
    have h3 := length_sprintfU (src 3)
    unfold quad
    simp only [← sprintfU_eq, List.length_append, List.length_cons]
    omega
  · rw [inetPton4_quad (Octet.digits _) (Octet.digits _) (Octet.digits _) (Octet.digits _)]
    simp only [List.map_cons, List.map_nil, value_digits, BitVec.ofNat_toNat, BitVec.setWidth_eq]
    rfl

end Iperf2.Compat
