import Mathlib.Data.List.Basic
import Mathlib.Data.List.TakeWhile

/-!
# Strings in an array of characters

A string starts at an offset of the array and ends at the next zero character. `strtok` writes such a character behind a
token and keeps for itself where the next token starts.

* `cstr buf o` : the string at `o`; `cstr_append`, `cstr_start`;
* `Tokens`, `strtok` : the array, and the offset that `strtok` keeps; `strtok_cut`, `strtok_last`, `strtok_none` : a
  token with a delimiter behind it, the last token, no token; `strtok_start_cut`, `strtok_start_last` : the same at the
  start of the array; `strtok_frame` : what lies in front stays;
* `shift` : a loop that moves characters to the front; `shift_eq`;
* `decimal`, `atoi` : numbers; `atoi_digits`, `atoi_of_not_digit`.
-/

namespace CString

/-- The character that ends a string. -/
def nul : Char := Char.ofNat 0

/-- The character at an offset. What lies behind the array is a matter of bounds, not of values. -/
def charAt (buf : List Char) (o : Nat) : Char := buf.getD o nul

/-- The string at an offset. -/
def cstr (buf : List Char) (o : Nat) : List Char := (buf.drop o).takeWhile (· ≠ nul)

section
variable {pre s rest : List Char} {c : Char} {o : Nat}

theorem charAt_cons (c : Char) (s : List Char) : charAt (c :: s) 0 = c := rfl

theorem drop_append (ho : o = pre.length) (rest : List Char) : (pre ++ rest).drop o = rest := by
  rw [ho]
  exact List.drop_left

theorem charAt_append (ho : o = pre.length) : charAt (pre ++ c :: rest) o = c := by
  unfold charAt
  rw [ho, List.getD_eq_getElem?_getD, List.getElem?_append_right (Nat.le_refl _), Nat.sub_self]
  rfl

theorem takeWhile_append_cons {p : Char → Bool} (hs : ∀ c ∈ s, p c = true) (hc : p c = false) :
    (s ++ c :: rest).takeWhile p = s := by
  rw [List.takeWhile_append_of_pos hs, List.takeWhile_cons, if_neg (by rw [hc]; exact Bool.false_ne_true),
    List.append_nil]

theorem cstr_append (ho : o = pre.length) (hs : nul ∉ s) : cstr (pre ++ (s ++ nul :: rest)) o = s := by
  unfold cstr
  rw [drop_append ho]
  refine takeWhile_append_cons (fun c hc => ?_) (by decide)
  rw [decide_eq_true_eq]
  rintro rfl
  exact hs hc

theorem cstr_start (hs : nul ∉ s) : cstr (s ++ nul :: rest) 0 = s := @cstr_append [] s rest 0 rfl hs

/-- A string has the first character of what it stands in. -/
theorem charAt_cstr (buf : List Char) : charAt (cstr buf 0) 0 = charAt buf 0 := by
  unfold cstr
  cases buf with
  | nil => rfl
  | cons c buf =>
    rw [List.drop_zero, List.takeWhile_cons]
    split
    · rfl
    · rename_i hnul
      rw [decide_eq_true_eq, not_not] at hnul
      rw [charAt_cons, hnul]
      rfl

end

/-! ## Tokens -/

/-- An array, and the offset that `strtok` keeps between two calls. -/
structure Tokens where
  buf : List Char
  saved : Nat

/-- `strtok(str, delims)` : the offset of a token, or `none`. Without `str` it goes on where it was. -/
def strtok (t : Tokens) (str : Option Nat) (delims : List Char) : Option Nat × Tokens :=
  let start := str.getD t.saved
  let p := start + ((cstr t.buf start).takeWhile (· ∈ delims)).length
  let q := p + ((cstr t.buf p).takeWhile (· ∉ delims)).length
  if charAt t.buf p = nul then (none, { t with saved := p })
  else if charAt t.buf q = nul then (some p, { t with saved := q })
  else (some p, ⟨t.buf.set q nul, q + 1⟩)

section
variable {pre tok rest delims : List Char} {d : Char} {saved : Nat} {str : Option Nat}

/-- The characters of a token end at a delimiter or at the end of the string. -/
theorem token_append (hnul : nul ∉ tok) (htok : ∀ c ∈ tok, c ∉ delims) (hd : d = nul ∨ d ∈ delims) :
    (cstr (pre ++ (tok ++ d :: rest)) pre.length).takeWhile (· ∉ delims) = tok := by
  unfold cstr
  rw [drop_append rfl, List.takeWhile_takeWhile]
  refine takeWhile_append_cons (fun c hc => ?_) ?_
  · simp only [decide_eq_true_eq]
    refine ⟨htok c hc, ?_⟩
    rintro rfl
    exact hnul hc
  · simp only [decide_eq_true_eq, decide_eq_false_iff_not]
    rintro ⟨hdelims, hne⟩
    exact hd.elim hne hdelims

/-- There is no delimiter in front of a token. -/
theorem no_delims_append (hne : tok ≠ []) (htok : ∀ c ∈ tok, c ∉ delims) :
    (cstr (pre ++ (tok ++ rest)) pre.length).takeWhile (· ∈ delims) = [] := by
  cases tok with
  | nil => exact absurd rfl hne
  | cons c tok =>
    unfold cstr
    rw [drop_append rfl, List.takeWhile_takeWhile, List.cons_append, List.takeWhile_cons, if_neg]
    simp only [decide_eq_true_eq]
    exact fun h => htok c List.mem_cons_self h.1

theorem charAt_token (hne : tok ≠ []) (hnul : nul ∉ tok) : charAt (pre ++ (tok ++ rest)) pre.length ≠ nul := by
  cases tok with
  | nil => exact absurd rfl hne
  | cons c tok =>
    rw [List.cons_append, charAt_append rfl]
    rintro rfl
    exact hnul List.mem_cons_self

/-- A token with a delimiter behind it. -/
theorem strtok_cut (hstart : str.getD saved = pre.length) (hne : tok ≠ []) (hnul : nul ∉ tok)
    (htok : ∀ c ∈ tok, c ∉ delims) (hd : d ∈ delims) (hdnul : d ≠ nul) :
    strtok ⟨pre ++ (tok ++ d :: rest), saved⟩ str delims =
      (some pre.length, ⟨pre ++ (tok ++ nul :: rest), pre.length + tok.length + 1⟩) := by
  have hd' : charAt (pre ++ (tok ++ d :: rest)) (pre.length + tok.length) = d := by
    rw [← List.append_assoc]
    exact charAt_append List.length_append.symm
  have hset : (pre ++ (tok ++ d :: rest)).set (pre.length + tok.length) nul = pre ++ (tok ++ nul :: rest) := by
    rw [List.set_append_right _ _ (Nat.le_add_right _ _), Nat.add_sub_cancel_left,
      List.set_append_right _ _ (Nat.le_refl _), Nat.sub_self]
    rfl
  unfold strtok
  dsimp only
  rw [hstart, no_delims_append hne htok, List.length_nil, Nat.add_zero, token_append hnul htok (.inr hd), hd', hset,
    if_neg (charAt_token hne hnul), if_neg hdnul]

/-- The last token of a string. -/
theorem strtok_last (hstart : str.getD saved = pre.length) (hne : tok ≠ []) (hnul : nul ∉ tok)
    (htok : ∀ c ∈ tok, c ∉ delims) :
    strtok ⟨pre ++ (tok ++ nul :: rest), saved⟩ str delims =
      (some pre.length, ⟨pre ++ (tok ++ nul :: rest), pre.length + tok.length⟩) := by
  have hd : charAt (pre ++ (tok ++ nul :: rest)) (pre.length + tok.length) = nul := by
    rw [← List.append_assoc]
    exact charAt_append List.length_append.symm
  unfold strtok
  dsimp only
  rw [hstart, no_delims_append hne htok, List.length_nil, Nat.add_zero, token_append hnul htok (.inl rfl), hd,
    if_neg (charAt_token hne hnul), if_pos rfl]

/-- A first token with a delimiter behind it, at the start of the array. -/
theorem strtok_start_cut (hne : tok ≠ []) (hnul : nul ∉ tok) (htok : ∀ c ∈ tok, c ∉ delims) (hd : d ∈ delims)
    (hdnul : d ≠ nul) :
    strtok ⟨tok ++ d :: rest, saved⟩ (some 0) delims = (some 0, ⟨tok ++ nul :: rest, tok.length + 1⟩) := by
  rw [← Nat.zero_add tok.length]
  exact @strtok_cut [] tok rest delims d saved (some 0) rfl hne hnul htok hd hdnul

/-- A first token that is the last one, at the start of the array. -/
theorem strtok_start_last (hne : tok ≠ []) (hnul : nul ∉ tok) (htok : ∀ c ∈ tok, c ∉ delims) :
    strtok ⟨tok ++ nul :: rest, saved⟩ (some 0) delims = (some 0, ⟨tok ++ nul :: rest, tok.length⟩) := by
  have hlast := @strtok_last [] tok rest delims saved (some 0) rfl hne hnul htok
  rwa [List.nil_append, List.length_nil, Nat.zero_add] at hlast

/-- No token at the end of a string. -/
theorem strtok_none (hstart : str.getD saved = pre.length) :
    strtok ⟨pre ++ nul :: rest, saved⟩ str delims = (none, ⟨pre ++ nul :: rest, pre.length⟩) := by
  have hempty : cstr (pre ++ nul :: rest) pre.length = [] := cstr_append (s := []) rfl List.not_mem_nil
  unfold strtok
  dsimp only
  rw [hstart, hempty, List.takeWhile_nil, List.length_nil, Nat.add_zero, charAt_append rfl, if_pos rfl]

/-- What lies in front of a token stays. -/
theorem strtok_frame (t : Tokens) {o : Nat} (ho : o < str.getD t.saved) :
    charAt (strtok t str delims).2.buf o = charAt t.buf o := by
  unfold strtok
  dsimp only
  split
  · rfl
  · split
    · rfl
    · unfold charAt
      rw [List.getD_eq_getElem?_getD, List.getD_eq_getElem?_getD, List.getElem?_set_ne (by omega)]

end

/-! ## A shift -/

/-- `for (jx = 0; jx < len; jx++) buf[jx] = buf[jx + 1]` -/
def shift (buf : List Char) : Nat → List Char
  | 0 => buf
  | len + 1 => (shift buf len).set len (charAt (shift buf len) (len + 1))

theorem shift_eq (buf : List Char) {len : Nat} (hlen : len < buf.length) :
    shift buf len = buf.tail.take len ++ buf.drop len := by
  induction len with
  | zero => rfl
  | succ len ih =>
    have hprefix : (buf.tail.take len).length = len := by
      rw [List.length_take, List.length_tail]
      omega
    have hdrop : buf.drop len = buf[len] :: buf[len + 1] :: buf.drop (len + 2) := by
      rw [List.drop_eq_getElem_cons (by omega), List.drop_eq_getElem_cons hlen]
    have htail : buf.tail.take (len + 1) = buf.tail.take len ++ [buf[len + 1]] := by
      rw [List.take_succ_eq_append_getElem (by rw [List.length_tail]; omega), List.getElem_tail]
    have hchar : charAt (buf.tail.take len ++ buf.drop len) (len + 1) = buf[len + 1] := by
      rw [hdrop, ← List.singleton_append, ← List.append_assoc]
      exact charAt_append (by rw [List.length_append, hprefix, List.length_singleton])
    rw [shift, ih (by omega), hchar, List.set_append_right _ _ (by omega), hprefix, Nat.sub_self, htail, hdrop,
      List.set_cons_zero, List.drop_eq_getElem_cons hlen, List.append_assoc]
    rfl

/-- A string loses its first character. -/
theorem shift_string {c : Char} {s rest : List Char} :
    shift (c :: (s ++ nul :: rest)) (s.length + 1) = s ++ nul :: nul :: rest := by
  have hnul : (s ++ nul :: rest).take (s.length + 1) = s ++ [nul] := by
    rw [List.append_cons]
    exact List.take_left' (by rw [List.length_append, List.length_singleton])
  rw [shift_eq _ (by simp), List.tail_cons, List.drop_succ_cons, drop_append rfl, hnul, List.append_assoc]
  rfl

/-! ## Numbers -/

/-- The value of digits. -/
def decimal (digits : List Char) : Nat := digits.foldl (fun n c => 10 * n + (c.toNat - 48)) 0

/-- `isspace` -/
def isSpace (c : Char) : Bool := c = ' ' || (9 ≤ c.toNat && c.toNat ≤ 13)

/-- `atoi(s)` -/
def atoi (s : List Char) : Int :=
  let s := s.dropWhile isSpace
  match s with
  | '-' :: s => -(decimal (s.takeWhile Char.isDigit) : Int)
  | '+' :: s => decimal (s.takeWhile Char.isDigit)
  | s => decimal (s.takeWhile Char.isDigit)

section
variable {c : Char} {s : List Char}

theorem isDigit_iff : c.isDigit = true ↔ 48 ≤ c.toNat ∧ c.toNat ≤ 57 := by
  unfold Char.isDigit
  rw [Bool.and_eq_true, decide_eq_true_eq, decide_eq_true_eq, ge_iff_le, UInt32.le_iff_toNat_le, UInt32.le_iff_toNat_le]
  rfl

theorem not_space_of_isDigit (h : c.isDigit = true) : isSpace c = false := by
  have hdigit := isDigit_iff.mp h
  unfold isSpace
  rw [Bool.or_eq_false_iff, decide_eq_false_iff_not, ← Bool.not_eq_true, Bool.and_eq_true, decide_eq_true_eq,
    decide_eq_true_eq]
  refine ⟨?_, by omega⟩
  rintro rfl
  exact absurd hdigit (by decide)

/-- A string that starts with neither a space nor a sign. -/
theorem atoi_cons (hspace : isSpace c = false) (hminus : c ≠ '-') (hplus : c ≠ '+') :
    atoi (c :: s) = decimal ((c :: s).takeWhile Char.isDigit) := by
  unfold atoi
  rw [List.dropWhile_cons, if_neg (by rw [hspace]; exact Bool.false_ne_true)]
  dsimp only
  split
  · rename_i heq
    exact absurd (List.cons.inj heq).1 hminus
  · rename_i heq
    exact absurd (List.cons.inj heq).1 hplus
  · rfl

theorem atoi_digits (hne : s ≠ []) (hs : ∀ c ∈ s, c.isDigit = true) : atoi s = decimal s := by
  cases s with
  | nil => exact absurd rfl hne
  | cons c s =>
    have hc := hs c List.mem_cons_self
    rw [atoi_cons (not_space_of_isDigit hc), List.takeWhile_eq_self_iff.mpr hs]
    · rintro rfl
      exact absurd hc (by decide)
    · rintro rfl
      exact absurd hc (by decide)

theorem atoi_of_not_digit (hspace : isSpace c = false) (hminus : c ≠ '-') (hplus : c ≠ '+')
    (hdigit : c.isDigit = false) : atoi (c :: s) = 0 := by
  rw [atoi_cons hspace hminus hplus, List.takeWhile_cons, if_neg (by rw [hdigit]; exact Bool.false_ne_true)]
  rfl

end

end CString
