import Iperf2.Compat.Inet6

/-!
# How IPv6 addresses are read

The `inet_pton6` of a host that has none.

* `inetPton6_joined`, `inetPton6_colons`, `inetPton6_quad` : what is made of eight words, of words around a double
  colon (among eight words it is not ignored, those behind it are lost), and of words in front of an IPv4 address;
* `inetNtop6_read` : every address fits into the buffer of its text, and is read back.
-/

namespace Iperf2.Compat
open Numeral

/-! ## The source -/

/-- `static const char xdigits_l[]` of `inet_pton6`. -/
def xdigitsL : List Char := ['0', '1', '2', '3', '4', '5', '6', '7', '8', '9', 'a', 'b', 'c', 'd', 'e', 'f']

/-- `static const char xdigits_u[]` of `inet_pton6`. -/
def xdigitsU : List Char := ['0', '1', '2', '3', '4', '5', '6', '7', '8', '9', 'A', 'B', 'C', 'D', 'E', 'F']

/-- `pch - xdigits` -/
def xdigit (ch : Char) : Option Nat :=
  match strchr xdigitsL ch with
  | none => strchr xdigitsU ch
  | some d => some d

/-- The variables of `inet_pton6`. The pointers are offsets into `tmp`. -/
structure Pton6 where
  tmp : Buf
  tp : Nat
  colonp : Option Nat
  curtok : List Char
  sawXdigit : Bool
  val : Nat

/-- The two bytes of `val` at `tp`. -/
def Pton6.putVal (s : Pton6) : Pton6 :=
  { s with
    tmp := s.tmp.store s.tp [BitVec.ofNat 8 (s.val >>> 8), BitVec.ofNat 8 s.val]
    tp := s.tp + 2 }

/-- The loop of `inet_pton6`. -/
def pton6Loop (s : Pton6) : List Char → Option Pton6
  | [] => some s
  | ch :: src =>
    match xdigit ch with
    | some d =>
      let val := s.val <<< 4 ||| d
      if val > 0xffff then none
      else pton6Loop { s with
        val := val
        sawXdigit := true } src
    | none =>
      if ch = ':' then
        if ¬s.sawXdigit then
          if s.colonp ≠ none then none
          else pton6Loop { s with
            curtok := src
            colonp := some s.tp } src
        else if s.tp + 2 > 16 then none
        else pton6Loop { s.putVal with
          curtok := src
          sawXdigit := false
          val := 0 } src
      else if ch = '.' ∧ s.tp + 4 ≤ 16 then
        match inetPton4 s.curtok with
        | none => none
        | some dst => some { s with
          tmp := s.tmp.store s.tp dst
          tp := s.tp + 4
          sawXdigit := false }
      else none

/-- The shift by hand, for the first `k` of `n` bytes: each one goes to the end of the buffer, and leaves a zero. -/
def shiftBytes (tmp : Buf) (colonp n : Nat) : Nat → Buf
  | 0 => tmp
  | k + 1 =>
    let t := shiftBytes tmp colonp n k
    (t.store (16 - (k + 1)) [t (colonp + (n - (k + 1)))]).store (colonp + (n - (k + 1))) [0]

/-- `inet_pton6` behind the last word. -/
def pton6Done (tmp : Buf) (tp : Nat) : Option Nat → Option (List Byte)
  | some colonp => some ((shiftBytes tmp colonp (tp - colonp) (tp - colonp)).window 0 16)
  | none => if tp ≠ 16 then none else some (tmp.window 0 16)

/-- `inet_pton6` behind the loop. -/
def Pton6.finish (s : Pton6) : Option (List Byte) :=
  if s.sawXdigit then if s.tp + 2 > 16 then none else pton6Done s.putVal.tmp s.putVal.tp s.colonp
  else pton6Done s.tmp s.tp s.colonp

/-- Leading :: requires some special handling. -/
def leadingColons : List Char → Option (List Char)
  | ':' :: ':' :: src => some (':' :: src)
  | ':' :: _ => none
  | src => some src

/-- `inet_pton6` -/
def inetPton6 (src : List Char) : Option (List Byte) := do
  let src ← leadingColons src
  let s ← pton6Loop ⟨Buf.zero, 0, none, src, false, 0⟩ src
  s.finish

/-! ## Digits -/

theorem xdigit_digitChar {d : Nat} (hd : d < 16) : xdigit (Nat.digitChar d) = some d := by
  have h : ∀ d < 16, xdigit (Nat.digitChar d) = some d := by decide
  exact h d hd

theorem xdigit_colon : xdigit ':' = none := by decide

theorem xdigit_dot : xdigit '.' = none := by decide

theorem shiftLeft_or {d : Nat} (hd : d < 16) (v : Nat) : v <<< 4 ||| d = v * 16 + d := by
  rw [← Nat.shiftLeft_add_eq_or_of_lt (show d < 2 ^ 4 from hd), Nat.shiftLeft_eq]

theorem pton6Loop_digits (tmp : Buf) (tp : Nat) (c : Option Nat) (tok : List Char) (ds : List Nat) (rest : List Char) :
    ∀ v, (∀ d ∈ ds, d < 16) → value 16 v ds ≤ 0xffff →
      pton6Loop ⟨tmp, tp, c, tok, true, v⟩ (text ds ++ rest) =
        pton6Loop ⟨tmp, tp, c, tok, true, value 16 v ds⟩ rest := by
  induction ds with
  | nil =>
    intro v _ _
    rfl
  | cons d ds ih =>
    intro v hlt hle
    rw [value_cons] at hle ⊢
    have hd := hlt d List.mem_cons_self
    have hnew := Numeral.le_value (b := 16) (by omega) (v * 16 + d) ds
    rw [← ih _ (fun e he => hlt e (List.mem_cons_of_mem d he)) hle]
    change pton6Loop _ (Nat.digitChar d :: (text ds ++ rest)) = _
    rw [pton6Loop, xdigit_digitChar hd]
    simp only [shiftLeft_or hd]
    rw [if_neg (by omega)]

/-- The digits of a word. -/
theorem pton6Loop_token (tmp : Buf) (tp : Nat) (c : Option Nat) (tok : List Char) {ds : List Nat} (hne : ds ≠ [])
    (hlt : ∀ d ∈ ds, d < 16) (hle : value 16 0 ds ≤ 0xffff) (rest : List Char) :
    pton6Loop ⟨tmp, tp, c, tok, false, 0⟩ (text ds ++ rest) =
      pton6Loop ⟨tmp, tp, c, tok, true, value 16 0 ds⟩ rest := by
  cases ds with
  | nil => exact absurd rfl hne
  | cons d ds =>
    rw [value_cons] at hle ⊢
    have hd := hlt d List.mem_cons_self
    have hnew := Numeral.le_value (b := 16) (by omega) (0 * 16 + d) ds
    rw [← pton6Loop_digits tmp tp c tok ds rest _ (fun e he => hlt e (List.mem_cons_of_mem d he)) hle]
    change pton6Loop _ (Nat.digitChar d :: (text ds ++ rest)) = _
    rw [pton6Loop, xdigit_digitChar hd]
    simp only [shiftLeft_or hd]
    rw [if_neg (by omega)]

theorem pton6Loop_hex (tmp : Buf) (tp : Nat) (c : Option Nat) (tok : List Char) (w : BitVec 16) (rest : List Char) :
    pton6Loop ⟨tmp, tp, c, tok, false, 0⟩ (hex w ++ rest) = pton6Loop ⟨tmp, tp, c, tok, true, w.toNat⟩ rest := by
  have hw : w.toNat < 2 ^ 16 := w.isLt
  have h := pton6Loop_token tmp tp c tok (Numeral.ne_nil (b := 16) w.toNat) (fun d => Numeral.mem_lt (by omega))
    (by rw [value_digits]; omega) rest
  rwa [value_digits] at h

/-! ## Words -/

/-- The two bytes of a word. -/
theorem putVal_word (tmp : Buf) (tp : Nat) (c : Option Nat) (tok : List Char) (saw : Bool) (w : BitVec 16) :
    (Pton6.mk tmp tp c tok saw w.toNat).putVal = ⟨tmp.store tp (bytes16 w), tp + 2, c, tok, saw, w.toNat⟩ := by
  rfl

/-- A word with a colon behind it, where a token starts. -/
theorem pton6Loop_word (tmp : Buf) {tp : Nat} (htp : tp + 2 ≤ 16) (c : Option Nat) (tok : List Char) (w : BitVec 16)
    (rest : List Char) : pton6Loop ⟨tmp, tp, c, tok, false, 0⟩ (hex w ++ ':' :: rest) =
      pton6Loop ⟨tmp.store tp (bytes16 w), tp + 2, c, rest, false, 0⟩ rest := by
  rw [pton6Loop_hex, pton6Loop, xdigit_colon]
  simp only
  rw [if_pos trivial, if_neg (not_not.mpr trivial), if_neg (by omega), putVal_word]

/-- The second one of two colons. -/
theorem pton6Loop_colon (tmp : Buf) (tp : Nat) (tok rest : List Char) :
    pton6Loop ⟨tmp, tp, none, tok, false, 0⟩ (':' :: rest) = pton6Loop ⟨tmp, tp, some tp, rest, false, 0⟩ rest := by
  rw [pton6Loop, xdigit_colon]
  simp only
  rw [if_pos trivial, if_pos (by decide), if_neg (not_not.mpr rfl)]

/-- Words with a colon behind each one. -/
def headed (ws : List (BitVec 16)) : List Char := ws.flatMap fun w => hex w ++ [':']

theorem pton6Loop_headed (c : Option Nat) (ws : List (BitVec 16)) (rest : List Char) :
    ∀ tmp tp, tp + 2 * ws.length ≤ 16 → pton6Loop ⟨tmp, tp, c, headed ws ++ rest, false, 0⟩ (headed ws ++ rest) =
      pton6Loop ⟨tmp.store tp (ws.flatMap bytes16), tp + 2 * ws.length, c, rest, false, 0⟩ rest := by
  induction ws with
  | nil =>
    intro tmp tp _
    rw [List.flatMap_nil, Buf.store_nil]
    rfl
  | cons w ws ih =>
    intro tmp tp hle
    rw [List.length_cons] at hle
    have hstore := Buf.store_append tmp tp (bytes16 w) (ws.flatMap bytes16)
    have htext : headed (w :: ws) ++ rest = hex w ++ ':' :: (headed ws ++ rest) := by
      rw [headed, List.flatMap_cons, List.append_assoc, List.append_assoc]
      rfl
    rw [htext, pton6Loop_word tmp (by omega), ih _ _ (by omega), List.flatMap_cons, ← hstore, List.length_cons]
    congr 2
    omega

/-- The last words. -/
theorem finish_joined (c : Option Nat) (ws : List (BitVec 16)) :
    ∀ tmp tp, tp + 2 * ws.length ≤ 16 →
      (pton6Loop ⟨tmp, tp, c, joined ws, false, 0⟩ (joined ws)).bind Pton6.finish =
        pton6Done (tmp.store tp (ws.flatMap bytes16)) (tp + 2 * ws.length) c := by
  induction ws with
  | nil =>
    intro tmp tp _
    rw [List.flatMap_nil, Buf.store_nil]
    rfl
  | cons w ws ih =>
    intro tmp tp hle
    rw [List.length_cons] at hle
    cases ws with
    | nil =>
      change (pton6Loop ⟨tmp, tp, c, hex w, false, 0⟩ (hex w)).bind _ = _
      rw [← List.append_nil (hex w), pton6Loop_hex, List.flatMap_singleton]
      change Pton6.finish _ = _
      unfold Pton6.finish
      rw [if_pos rfl, if_neg (by simp only; omega), putVal_word]
      rfl
    | cons v ws =>
      have hstore := Buf.store_append tmp tp (bytes16 w) ((v :: ws).flatMap bytes16)
      change (pton6Loop ⟨tmp, tp, c, _, false, 0⟩ (hex w ++ ':' :: joined (v :: ws))).bind _ = _
      have hws : (w :: v :: ws).flatMap bytes16 = bytes16 w ++ (v :: ws).flatMap bytes16 := List.flatMap_cons
      rw [pton6Loop_word tmp (by omega), ih _ _ (by omega), hws, ← hstore]
      congr 1
      simp only [List.length_cons]
      omega

/-- An IPv4 address at the end. -/
theorem finish_quad (tmp : Buf) {tp : Nat} (htp : tp + 4 ≤ 16) (c : Option Nat) (src : Buf) {quad : List Char}
    (hquad : inetNtop4 src 16 = some quad) : (pton6Loop ⟨tmp, tp, c, quad, false, 0⟩ quad).bind Pton6.finish =
      pton6Done (tmp.store tp (src.window 0 4)) (tp + 4) c := by
  obtain ⟨dst, hdst, -, hread⟩ := inetNtop4_read src (Nat.le_refl 16)
  obtain rfl : dst = quad := Option.some.inj (hdst.symm.trans hquad)
  -- the digits up to the dot are those of a word
  have hlt : ∀ d ∈ digits 10 (src 0).toNat, d < 16 := fun d hd => by
    have := Numeral.mem_lt (by omega) hd
    omega
  have hlen : (digits 10 (src 0).toNat).length ≤ 3 := Numeral.length_le (by omega) (by omega) (by
    have hb : (src 0).toNat < 2 ^ 8 := (src 0).isLt
    omega)
  have hval : value 16 0 (digits 10 (src 0).toNat) ≤ 0xffff := by
    have hv := Numeral.value_lt (by omega) hlt
    have hpow : 16 ^ (digits 10 (src 0).toNat).length ≤ 16 ^ 3 := Nat.pow_le_pow_right (by omega) hlen
    omega
  obtain ⟨rest, hrest⟩ : ∃ rest, dst = text (digits 10 (src 0).toNat) ++ '.' :: rest := by
    rw [inetNtop4_eq src (Nat.le_refl 16)] at hdst
    exact ⟨_, (Option.some.inj hdst).symm⟩
  have hloop : pton6Loop ⟨tmp, tp, c, dst, false, 0⟩ dst = some ⟨tmp.store tp (src.window 0 4), tp + 4, c, dst, false,
      value 16 0 (digits 10 (src 0).toNat)⟩ := by
    conv_lhs =>
      arg 2
      rw [hrest]
    rw [pton6Loop_token tmp tp c dst (Numeral.ne_nil _) hlt hval, pton6Loop, xdigit_dot]
    simp only
    rw [if_neg (by decide), if_pos ⟨trivial, htp⟩, hread]
  rw [hloop]
  rfl

/-! ## The shift -/

theorem store_singleton (t : Buf) (p : Nat) (v : Byte) (j : Nat) : t.store p [v] j = if j = p then v else t j := by
  split
  · rename_i h
    rw [h]
    exact Buf.store_getElem t p [v] (Nat.zero_lt_succ 0)
  · rename_i h
    rcases Nat.lt_or_gt_of_ne h with hlt | hgt
    · exact Buf.store_of_lt t p [v] hlt
    · exact Buf.store_of_le t p [v] (by simp only [List.length_singleton]; omega)

/-- Bytes that go to the end of a buffer that they do not reach. -/
theorem shiftBytes_open {tmp : Buf} {tp c n : Nat} (hn : c + n = tp) (htp : tp < 16)
    (hz : ∀ j, tp ≤ j → tmp j = 0) : ∀ k ≤ n, ∀ j < 16, shiftBytes tmp c n k j =
      if 16 - k ≤ j then tmp (j - (16 - tp)) else if tp - k ≤ j then 0 else tmp j := by
  intro k
  induction k with
  | zero =>
    intro _ j hj
    rw [if_neg (by omega)]
    split
    · exact hz j (by omega)
    · rfl
  | succ k ih =>
    intro hk j hj
    have hih := ih (by omega)
    change ((shiftBytes tmp c n k).store (16 - (k + 1)) [shiftBytes tmp c n k (c + (n - (k + 1)))]).store
      (c + (n - (k + 1))) [0] j = _
    rw [store_singleton, store_singleton]
    by_cases hzero : j = c + (n - (k + 1))
    · rw [if_pos hzero, if_neg (by omega), if_pos (by omega)]
    · rw [if_neg hzero]
      by_cases hend : j = 16 - (k + 1)
      · rw [if_pos hend, if_pos (by omega), hih _ (by omega), if_neg (by omega), if_neg (by omega)]
        congr 1
        omega
      · rw [if_neg hend, hih j hj]
        by_cases hhigh : 16 - k ≤ j
        · rw [if_pos hhigh, if_pos (by omega)]
        · rw [if_neg hhigh, if_neg (show ¬16 - (k + 1) ≤ j by omega)]
          by_cases hlow : tp - k ≤ j
          · rw [if_pos hlow, if_pos (by omega)]
          · rw [if_neg hlow, if_neg (by omega)]

/-- Bytes that are at the end of the buffer already: each one is put where it is, and then zeroed. -/
theorem shiftBytes_full {tmp : Buf} {c n : Nat} (hn : c + n = 16) : ∀ k ≤ n, ∀ j < 16,
    shiftBytes tmp c n k j = if 16 - k ≤ j then 0 else tmp j := by
  intro k
  induction k with
  | zero =>
    intro _ j hj
    rw [if_neg (by omega)]
    rfl
  | succ k ih =>
    intro hk j hj
    change ((shiftBytes tmp c n k).store (16 - (k + 1)) [shiftBytes tmp c n k (c + (n - (k + 1)))]).store
      (c + (n - (k + 1))) [0] j = _
    rw [store_singleton, store_singleton]
    by_cases hzero : j = c + (n - (k + 1))
    · rw [if_pos hzero, if_pos (by omega)]
    · rw [if_neg hzero, if_neg (by omega), ih (by omega) j hj]
      by_cases hhigh : 16 - k ≤ j
      · rw [if_pos hhigh, if_pos (by omega)]
      · rw [if_neg hhigh, if_neg (by omega)]

theorem stored_apply (bs : List Byte) (j : Nat) : Buf.zero.store 0 bs j = (bs[j]?).getD 0 := by
  unfold Buf.store
  rw [if_pos (Nat.zero_le j)]
  rfl

theorem stored_window {bs : List Byte} (h : bs.length = 16) : (Buf.zero.store 0 bs).window 0 16 = bs := by
  apply List.ext_getElem
  · rw [Buf.window_length, h]
  · intro j _ hj
    rw [Buf.window_getElem, Nat.zero_add, stored_apply, List.getElem?_eq_getElem hj, Option.getD_some]

/-- The bytes behind the colons are put at the end. -/
theorem pton6Done_open {before after : List Byte} (h : before.length + after.length < 16) :
    pton6Done (Buf.zero.store 0 (before ++ after)) (before.length + after.length) (some before.length) =
      some (before ++ List.replicate (16 - (before.length + after.length)) 0 ++ after) := by
  have hn : before.length + after.length - before.length = after.length := by omega
  unfold pton6Done
  simp only [hn]
  congr 1
  apply List.ext_getElem
  · simp only [Buf.window_length, List.length_append, List.length_replicate]
    omega
  · intro j hj hj'
    rw [Buf.window_length] at hj
    rw [Buf.window_getElem, Nat.zero_add, shiftBytes_open rfl h ?_ _ (Nat.le_refl _) j hj, stored_apply, stored_apply]
    · grind
    · intro i hi
      rw [stored_apply, List.getElem?_eq_none (by rw [List.length_append]; exact hi)]
      rfl

/-- The bytes behind the colons are lost when there is no room for a zero. -/
theorem pton6Done_full {before after : List Byte} (h : before.length + after.length = 16) :
    pton6Done (Buf.zero.store 0 (before ++ after)) (before.length + after.length) (some before.length) =
      some (before ++ List.replicate after.length 0) := by
  have hn : before.length + after.length - before.length = after.length := by omega
  unfold pton6Done
  simp only [hn]
  congr 1
  apply List.ext_getElem
  · simp only [Buf.window_length, List.length_append, List.length_replicate]
    omega
  · intro j hj hj'
    rw [Buf.window_length] at hj
    rw [Buf.window_getElem, Nat.zero_add, shiftBytes_full h _ (Nat.le_refl _) j hj, stored_apply]
    grind

/-! ## What is read -/

theorem length_flatMap_bytes16 (ws : List (BitVec 16)) : (ws.flatMap bytes16).length = 2 * ws.length := by
  induction ws with
  | nil => rfl
  | cons w ws ih =>
    rw [List.flatMap_cons, List.length_append, ih, List.length_cons]
    change 2 + _ = _
    omega

theorem leadingColons_hex (w : BitVec 16) (rest : List Char) : leadingColons (hex w ++ rest) = some (hex w ++ rest) := by
  have hne : digits 16 w.toNat ≠ [] := Numeral.ne_nil w.toNat
  have hlt : ∀ d ∈ digits 16 w.toNat, d < 16 := fun d => Numeral.mem_lt (by omega)
  unfold hex sprintfX
  cases hd : digits 16 w.toNat with
  | nil => exact absurd hd hne
  | cons d ds =>
    have hcolon : ∀ d < 16, Nat.digitChar d ≠ ':' := by decide
    have hfirst := hcolon d (hlt d (hd ▸ List.mem_cons_self))
    rw [List.map_cons, List.cons_append, leadingColons]
    · intro _ heq
      exact hfirst (List.cons.inj heq).1
    · intro _ heq
      exact hfirst (List.cons.inj heq).1

theorem headed_eq (ws : List (BitVec 16)) : ':' :: headed ws = tailed ws ++ [':'] := by
  induction ws with
  | nil => rfl
  | cons w ws ih =>
    rw [headed, tailed, List.flatMap_cons, List.flatMap_cons, ← headed, ← tailed, List.append_assoc, List.append_assoc,
      ← ih]
    rfl

theorem joined_colon {ws : List (BitVec 16)} (h : ws ≠ []) (rest : List Char) :
    joined ws ++ ':' :: rest = headed ws ++ rest := by
  have htail := tailed_eq h
  have hhead := headed_eq ws
  rw [htail, List.cons_append] at hhead
  rw [(List.cons.inj hhead).2, List.append_assoc]
  rfl

/-- Words, and a double colon behind them. -/
theorem leadingColons_joined (ws : List (BitVec 16)) (rest : List Char) :
    leadingColons (joined ws ++ ':' :: ':' :: rest) = some (headed ws ++ ':' :: rest) := by
  cases ws with
  | nil => rfl
  | cons w ws =>
    rw [← joined_colon (List.cons_ne_nil w ws), joined_cons, List.append_assoc, leadingColons_hex]

/-- Eight words. -/
theorem inetPton6_joined {ws : List (BitVec 16)} (h : ws.length = 8) :
    inetPton6 (joined ws) = some (ws.flatMap bytes16) := by
  have hne : ws ≠ [] := List.ne_nil_of_length_pos (by omega)
  obtain ⟨w, vs, rfl⟩ := List.exists_cons_of_ne_nil hne
  have hlead : leadingColons (joined (w :: vs)) = some (joined (w :: vs)) := by
    rw [joined_cons]
    exact leadingColons_hex w (tailed vs)
  have hbytes : ((w :: vs).flatMap bytes16).length = 16 := by
    rw [length_flatMap_bytes16, h]
  unfold inetPton6
  rw [hlead]
  change (pton6Loop _ _).bind Pton6.finish = _
  rw [finish_joined none _ _ _ (by omega), h]
  unfold pton6Done
  rw [if_neg (by omega), stored_window hbytes]

/-- The words around a double colon, before the shift. -/
theorem inetPton6_double {pre suf : List (BitVec 16)} (h : pre.length + suf.length ≤ 8) :
    inetPton6 (joined pre ++ ':' :: ':' :: joined suf) =
      pton6Done (Buf.zero.store 0 (pre.flatMap bytes16 ++ suf.flatMap bytes16))
        ((pre.flatMap bytes16).length + (suf.flatMap bytes16).length) (some (pre.flatMap bytes16).length) := by
  have hstore := Buf.store_append Buf.zero 0 (pre.flatMap bytes16) (suf.flatMap bytes16)
  rw [length_flatMap_bytes16] at hstore
  unfold inetPton6
  rw [leadingColons_joined]
  change (pton6Loop _ _).bind Pton6.finish = _
  rw [pton6Loop_headed none pre _ _ _ (by omega), pton6Loop_colon, finish_joined _ _ _ _ (by omega), hstore,
    length_flatMap_bytes16, length_flatMap_bytes16, Nat.zero_add]

/-- The double colon stands for the zero words that are missing. -/
theorem inetPton6_open {pre suf : List (BitVec 16)} (h : pre.length + suf.length < 8) :
    inetPton6 (joined pre ++ ':' :: ':' :: joined suf) = some (pre.flatMap bytes16 ++
      List.replicate (16 - 2 * (pre.length + suf.length)) 0 ++ suf.flatMap bytes16) := by
  rw [inetPton6_double (by omega), pton6Done_open, length_flatMap_bytes16, length_flatMap_bytes16]
  · congr 4
    omega
  · rw [length_flatMap_bytes16, length_flatMap_bytes16]
    omega

/-- A double colon among eight words. -/
theorem inetPton6_full {pre suf : List (BitVec 16)} (h : pre.length + suf.length = 8) :
    inetPton6 (joined pre ++ ':' :: ':' :: joined suf) =
      some (pre.flatMap bytes16 ++ List.replicate (2 * suf.length) 0) := by
  rw [inetPton6_double (by omega), pton6Done_full, length_flatMap_bytes16]
  rw [length_flatMap_bytes16, length_flatMap_bytes16]
  omega

/-- A double colon stands for the zero words that are missing. When none is missing it is not ignored: the words behind
it are read as zeros. -/
theorem inetPton6_colons {pre suf : List (BitVec 16)} (h : pre.length + suf.length ≤ 8) :
    inetPton6 (joined pre ++ ':' :: ':' :: joined suf) = some (pre.flatMap bytes16 ++
      List.replicate (16 - 2 * (pre.length + suf.length)) 0 ++
      if pre.length + suf.length = 8 then List.replicate (2 * suf.length) 0 else suf.flatMap bytes16) := by
  split
  · rename_i hfull
    rw [inetPton6_full hfull, hfull, Nat.sub_self, List.replicate_zero, List.append_nil]
  · exact inetPton6_open (by omega)

theorem inetPton6_colons_full :
    inetPton6 (joined [1#16, 2#16, 3#16, 4#16] ++ ':' :: ':' :: joined [5#16, 6#16, 7#16, 8#16]) =
      some [0, 1, 0, 2, 0, 3, 0, 4, 0, 0, 0, 0, 0, 0, 0, 0] :=
  inetPton6_colons (by decide)

/-- Words in front of an IPv4 address. -/
theorem inetPton6_quad {ws : List (BitVec 16)} (h : ws.length < 6) {src : Buf} {quad : List Char}
    (hquad : inetNtop4 src 16 = some quad) : inetPton6 (':' :: (tailed ws ++ ':' :: quad)) =
      some (List.replicate (12 - 2 * ws.length) 0 ++ ws.flatMap bytes16 ++ src.window 0 4) := by
  have hlead : leadingColons (':' :: (tailed ws ++ ':' :: quad)) = some (':' :: (headed ws ++ quad)) := by
    have htext : tailed ws ++ ':' :: quad = ':' :: (headed ws ++ quad) := by
      rw [← List.cons_append, headed_eq, List.append_assoc]
      rfl
    rw [htext]
    rfl
  have hstore := Buf.store_append Buf.zero 0 (ws.flatMap bytes16) (src.window 0 4)
  have hdone := @pton6Done_open [] (ws.flatMap bytes16 ++ src.window 0 4) (by
    rw [List.length_nil, List.length_append, length_flatMap_bytes16, Buf.window_length]
    omega)
  rw [List.nil_append, List.nil_append, List.length_nil, List.length_append, length_flatMap_bytes16,
    Buf.window_length] at hdone
  unfold inetPton6
  rw [hlead]
  change (pton6Loop _ _).bind Pton6.finish = _
  rw [pton6Loop_colon, pton6Loop_headed _ ws _ _ _ (by omega), finish_quad _ (by omega) _ _ hquad]
  rw [length_flatMap_bytes16] at hstore
  rw [hstore, show 0 + 2 * ws.length + 4 = 0 + (2 * ws.length + 4) by omega, hdone, List.append_assoc]
  congr 3
  omega

/-! ## Round trip -/

theorem wordsAt_bytes (src : Buf) (o n : Nat) : (wordsAt src o n).flatMap bytes16 = src.window (2 * o) (2 * n) := by
  induction n generalizing o with
  | zero => rfl
  | succ n ih =>
    have hcons : wordsAt src o (n + 1) = src.be16 (2 * o) :: wordsAt src (o + 1) n := rfl
    rw [hcons, List.flatMap_cons, ih, ← Buf.window_two, show 2 * (n + 1) = 2 + 2 * n by omega, Buf.window_append]
    rfl

/-- Words that are zero. -/
theorem Zeros.window {src : Buf} {n b len : Nat} (h : Zeros (words src) n b len) :
    src.window (2 * b) (2 * len) = List.replicate (2 * len) 0 := by
  apply List.ext_getElem
  · rw [Buf.window_length, List.length_replicate]
  · intro j hj hj'
    rw [Buf.window_length] at hj
    have hword := h.zero (b + j / 2) (by omega) (by omega)
    have hbytes := append_toNat (src (2 * (b + j / 2))) (src (2 * (b + j / 2) + 1))
    rw [Buf.window_getElem, List.getElem_replicate]
    apply BitVec.eq_of_toNat_eq
    change (src.be16 _).toNat = 0 at hword
    change (src.be16 _).toNat = _ at hbytes
    rcases Nat.mod_two_eq_zero_or_one j with heven | hodd
    · rw [show 2 * b + j = 2 * (b + j / 2) by omega]
      change _ = 0
      omega
    · rw [show 2 * b + j = 2 * (b + j / 2) + 1 by omega]
      change _ = 0
      omega

/-- The bytes of an address around the words that the colons stand for. -/
theorem window_colons {src : Buf} {b len : Nat} (h : Zeros (words src) 8 b len) : src.window 0 16 =
    (wordsAt src 0 b).flatMap bytes16 ++ List.replicate (2 * len) 0 ++
      (wordsAt src (b + len) (8 - (b + len))).flatMap bytes16 := by
  have hend := h.le
  have hwhole : 16 = 2 * b + 2 * len + 2 * (8 - (b + len)) := by omega
  rw [wordsAt_bytes, wordsAt_bytes, ← h.window, hwhole, Buf.window_append, Buf.window_append, Nat.mul_zero,
    Nat.zero_add, Nat.zero_add, ← Nat.mul_add]

/-- The bytes of an address that ends in an IPv4 address. -/
theorem window_encapsulated {src : Buf} {len : Nat} (h : Zeros (words src) 8 0 len) (hle : len ≤ 6) :
    src.window 0 16 = List.replicate (2 * len) 0 ++ (wordsAt src len (6 - len)).flatMap bytes16 ++ src.window 12 4 := by
  have hwhole : 16 = 2 * len + 2 * (6 - len) + 4 := by omega
  have hlast : 12 = 0 + (2 * len + 2 * (6 - len)) := by omega
  rw [wordsAt_bytes, ← h.window, hlast, hwhole, Buf.window_append, Buf.window_append, Nat.mul_zero, Nat.zero_add]

/-- Every address fits into the buffer of the text, and what is printed is read back. -/
theorem inetNtop6_read (src : Buf) {size : Nat} (hsize : 46 ≤ size) :
    ∃ dst, inetNtop6 src size = some dst ∧ inetPton6 dst = some (src.window 0 16) := by
  rcases hbest : bestRun (words src) with ⟨none | b, len⟩
  · -- nothing is shortened
    refine ⟨_, inetNtop6_words src hsize (congrArg ZeroRun.base hbest), ?_⟩
    rw [inetPton6_joined (wordsAt_length src 0 8), wordsAt_bytes]
  · obtain ⟨hz, htwo⟩ := bestRun_zeros (congrArg ZeroRun.base hbest)
    rw [hbest] at hz htwo
    have hend : b + len ≤ 8 := hz.le
    have hlen : 2 ≤ len := htwo
    by_cases hfour : encapsulated src ⟨some b, len⟩
    · obtain ⟨quad, hquad, htext⟩ := inetNtop6_quad src hsize (hbest.symm ▸ hfour)
      obtain ⟨hzero, hshort⟩ := hfour
      obtain rfl : b = 0 := Option.some.inj hzero
      have hle : len ≤ 6 := by
        simp only at hshort
        omega
      refine ⟨_, htext, ?_⟩
      rw [hbest, inetPton6_quad (by rw [wordsAt_length]; simp only; omega) hquad, window_encapsulated hz hle,
        wordsAt_length]
      simp only
      rw [show 12 - 2 * (6 - len) = 2 * len by omega]
      rfl
    · refine ⟨_, inetNtop6_colons src hsize hbest hfour, ?_⟩
      rw [inetPton6_open (by rw [wordsAt_length, wordsAt_length]; omega), window_colons hz, wordsAt_length,
        wordsAt_length]
      rw [show 16 - 2 * (b + (8 - (b + len))) = 2 * len by omega]

/-- The address of the host itself. -/
theorem inetNtop6_read_loopback : ∃ dst, inetNtop6 (Buf.spot 15 1) 46 = some dst ∧
    inetPton6 dst = some [0, 0, 0, 0, 0, 0, 0, 0, 0, 0, 0, 0, 0, 0, 0, 1] :=
  inetNtop6_read (Buf.spot 15 1) (Nat.le_refl 46)

end Iperf2.Compat
