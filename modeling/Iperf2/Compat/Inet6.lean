import Iperf2.Compat.Inet

/-!
# How IPv6 addresses are printed

The `inet_ntop6` of a host that has none.

* `bestRun_zeros`, `bestRun_longest` : what is shortened is the first of the longest runs of zero words;
* `inetNtop6_words`, `inetNtop6_colons`, `inetNtop6_quad` : what is printed.
-/

namespace Iperf2.Compat
open Numeral

/-! ## The source -/

/-- `sprintf` of `%x`. -/
def sprintfX (n : Nat) : List Char := (digits 16 n).map Nat.digitChar

/-- `words`, of which each one is two bytes of the input. -/
def words (src : Buf) (i : Nat) : Nat := (src.be16 (2 * i)).toNat

/-- `struct { int base, len; }`. The base is -1 at `none`. -/
structure ZeroRun where
  base : Option Nat
  len : Nat

/-- `if ( best.base == -1 || cur.len > best.len ) best = cur;` -/
def ZeroRun.max (best cur : ZeroRun) : ZeroRun := if best.base = none ∨ cur.len > best.len then cur else best

/-- The loop that looks for the longest run, at the word `i`. -/
def scanWord (w : Nat → Nat) (best cur : ZeroRun) (i : Nat) : ZeroRun × ZeroRun :=
  if w i = 0 then
    if cur.base = none then (best, ⟨some i, 1⟩)
    else (best, { cur with len := cur.len + 1 })
  else if cur.base ≠ none then (best.max cur, { cur with base := none })
  else (best, cur)

/-- `best` and `cur` after the first `n` words. -/
def scanWords (w : Nat → Nat) : Nat → ZeroRun × ZeroRun
  | 0 => (⟨none, 0⟩, ⟨none, 0⟩)
  | n + 1 => scanWord w (scanWords w n).1 (scanWords w n).2 n

/-- The longest run, when the last word was seen. -/
def longestRun (w : Nat → Nat) : ZeroRun :=
  let s := scanWords w 8
  if s.2.base ≠ none then s.1.max s.2 else s.1

/-- The run that the colons stand for. -/
def bestRun (w : Nat → Nat) : ZeroRun :=
  let best := longestRun w
  if best.base ≠ none ∧ best.len < 2 then { best with base := none } else best

/-- `i >= best.base && i < (best.base + best.len)` -/
def ZeroRun.Inside (best : ZeroRun) (i : Nat) : Prop := ∃ b ∈ best.base, b ≤ i ∧ i < b + best.len

instance (best : ZeroRun) (i : Nat) : Decidable (best.Inside i) := by
  unfold ZeroRun.Inside
  infer_instance

/-- `sizeof tmp` of `inet_ntop6`. -/
def ntop6Size : Nat := 46

/-- Is this address an encapsulated IPv4? -/
def encapsulated (src : Buf) (best : ZeroRun) : Prop :=
  best.base = some 0 ∧ (best.len = 6 ∨ (best.len = 5 ∧ words src 5 = 0xffff))

instance (src : Buf) (best : ZeroRun) : Decidable (encapsulated src best) := inferInstanceAs (Decidable (_ ∧ _))

/-- The loop that formats the words. `tp` is the text so far. -/
def ntop6Loop (src : Buf) (best : ZeroRun) : List Nat → List Char → Option (List Char)
  | [], tp => some tp
  | i :: is, tp =>
    if best.Inside i then ntop6Loop src best is (if best.base = some i then tp ++ [':'] else tp)
    else
      let tp := if i ≠ 0 then tp ++ [':'] else tp
      if i = 6 ∧ encapsulated src best then
        match inetNtop4 (fun k => src (12 + k)) (ntop6Size - tp.length) with
        | none => none
        | some quad => some (tp ++ quad)
      else ntop6Loop src best is (tp ++ sprintfX (words src i))

/-- `inet_ntop6` -/
def inetNtop6 (src : Buf) (size : Nat) : Option (List Char) :=
  let best := bestRun (words src)
  match ntop6Loop src best (List.range 8) [] with
  | none => none
  | some tp =>
    let tp := if best.base.map (· + best.len) = some 8 then tp ++ [':'] else tp
    if tp.length + 1 > size then none else some tp

/-! ## The longest run -/

/-- A run of `len` zero words from `b` on, within the first `n`. -/
structure Zeros (w : Nat → Nat) (n b len : Nat) : Prop where
  pos : 0 < len
  le : b + len ≤ n
  zero : ∀ j, b ≤ j → j < b + len → w j = 0

theorem Zeros.mono {w : Nat → Nat} {n m b len : Nat} (h : Zeros w n b len) (hle : n ≤ m) : Zeros w m b len :=
  ⟨h.pos, h.le.trans hle, h.zero⟩

/-- A word that is not zero ends every run. -/
theorem Zeros.before {w : Nat → Nat} {n b len : Nat} (h : Zeros w (n + 1) b len) (hw : w n ≠ 0) : Zeros w n b len := by
  refine ⟨h.pos, ?_, h.zero⟩
  by_contra hlt
  have hle := h.le
  have hpos := h.pos
  exact hw (h.zero n (by omega) (by omega))

/-- A run that reaches the last word has no other word in front of it than zeros. -/
theorem Zeros.le_of_ne {w : Nat → Nat} {n b len i : Nat} (h : Zeros w n b len) (hw : w i ≠ 0) (hlt : i < b + len) :
    i < b := by
  by_contra hle
  exact hw (h.zero i (by omega) hlt)

/-- This run is not shorter than that one, and starts first where they are as long. -/
def ZeroRun.Beats (r : ZeroRun) (b len : Nat) : Prop :=
  ∃ b' ∈ r.base, len ≤ r.len ∧ (len = r.len → b' ≤ b)

/-- What the loop knows after `n` words. -/
structure Scanned (w : Nat → Nat) (n : Nat) (best cur : ZeroRun) : Prop where
  best_zeros : ∀ b ∈ best.base, Zeros w n b best.len
  cur_zeros : ∀ c ∈ cur.base, Zeros w n c cur.len ∧ c + cur.len = n
  cur_first : ∀ c ∈ cur.base, c = 0 ∨ w (c - 1) ≠ 0
  cur_none : cur.base = none → n = 0 ∨ w (n - 1) ≠ 0
  ordered : ∀ b ∈ best.base, ∀ c ∈ cur.base, b < c
  covered : ∀ b len, Zeros w n b len → best.Beats b len ∨ ∃ c ∈ cur.base, c ≤ b

namespace Scanned

variable {w : Nat → Nat} {n : Nat} {best cur : ZeroRun} (h : Scanned w n best cur)
include h

theorem max_zeros : ∀ b ∈ (best.max cur).base, Zeros w n b (best.max cur).len := by
  intro b hb
  unfold ZeroRun.max at hb ⊢
  split at hb
  · rename_i hmax
    rw [if_pos hmax]
    exact (h.cur_zeros b hb).1
  · rename_i hmax
    rw [if_neg hmax]
    exact h.best_zeros b hb

/-- The longer one of the two beats every run so far. -/
theorem max_beats {c : Nat} (hc : cur.base = some c) {b len : Nat} (hz : Zeros w n b len) :
    (best.max cur).Beats b len := by
  obtain ⟨hcur, hend⟩ := h.cur_zeros c hc
  unfold ZeroRun.max
  rcases h.covered b len hz with ⟨b', hb', hle, hfirst⟩ | ⟨c', hc', hcb⟩
  · rcases Nat.lt_or_ge best.len cur.len with hlt | hge
    · rw [if_pos (.inr hlt)]
      exact ⟨c, hc, by omega, by omega⟩
    · have hbase : ¬(best.base = none ∨ cur.len > best.len) := by
        rintro (hnone | hgt)
        · rw [hnone] at hb'
          cases hb'
        · omega
      rw [if_neg hbase]
      exact ⟨b', hb', hle, hfirst⟩
  · obtain rfl : c = c' := Option.some.inj (hc.symm.trans hc')
    have hin := hz.le
    split
    · exact ⟨c, hc, by omega, fun _ => hcb⟩
    · rename_i hmax
      push Not at hmax
      obtain ⟨b', hb'⟩ := Option.ne_none_iff_exists'.mp hmax.1
      have hord := h.ordered b' hb' c hc
      exact ⟨b', hb', by omega, fun _ => by omega⟩

/-- A zero word behind another word. -/
theorem start (hw : w n = 0) (hnone : cur.base = none) : Scanned w (n + 1) best ⟨some n, 1⟩ where
  best_zeros b hb := (h.best_zeros b hb).mono (Nat.le_succ n)
  cur_zeros := by
    rintro c ⟨⟩
    refine ⟨⟨Nat.one_pos, Nat.le_refl _, fun j hle hlt => ?_⟩, rfl⟩
    have hj : j = n := Nat.le_antisymm (Nat.le_of_lt_succ hlt) hle
    rw [hj]
    exact hw
  cur_first := by
    rintro c ⟨⟩
    exact h.cur_none hnone
  cur_none := nofun
  ordered := by
    rintro b hb c ⟨⟩
    have hz := h.best_zeros b hb
    have hle := hz.le
    have hpos := hz.pos
    omega
  covered b len hz := by
    by_cases hend : b + len ≤ n
    · rcases h.covered b len ⟨hz.pos, hend, hz.zero⟩ with hbeats | ⟨c, hc, -⟩
      · exact .inl hbeats
      · rw [hnone] at hc
        cases hc
    · refine .inr ⟨n, rfl, ?_⟩
      rcases h.cur_none hnone with hzero | hne
      · omega
      · have := hz.le_of_ne hne (by omega)
        omega

/-- A zero word behind a zero word. -/
theorem extend (hw : w n = 0) {c : Nat} (hc : cur.base = some c) :
    Scanned w (n + 1) best { cur with len := cur.len + 1 } := by
  obtain ⟨hcur, hend⟩ := h.cur_zeros c hc
  have hfirst := h.cur_first c hc
  have hpos := hcur.pos
  refine ⟨fun b hb => (h.best_zeros b hb).mono (Nat.le_succ n), ?_, h.cur_first, ?_, h.ordered, ?_⟩
  · intro c' hc'
    obtain rfl : c = c' := Option.some.inj (hc.symm.trans hc')
    refine ⟨⟨Nat.succ_pos _, by simp only; omega, fun j hle hlt => ?_⟩, by simp only; omega⟩
    by_cases hj : j = n
    · rw [hj]
      exact hw
    · simp only at hlt
      exact hcur.zero j hle (by omega)
  · intro hnone
    rw [show cur.base = none from hnone] at hc
    cases hc
  · intro b len hz
    by_cases hin : b + len ≤ n
    · exact h.covered b len ⟨hz.pos, hin, hz.zero⟩
    · refine .inr ⟨c, hc, ?_⟩
      rcases hfirst with hzero | hne
      · omega
      · have hle := hz.le
        have := hz.le_of_ne hne (by omega)
        omega

/-- A word that is not zero, behind a zero word. -/
theorem close (hw : w n ≠ 0) {c : Nat} (hc : cur.base = some c) :
    Scanned w (n + 1) (best.max cur) { cur with base := none } where
  best_zeros b hb := (h.max_zeros b hb).mono (Nat.le_succ n)
  cur_zeros := nofun
  cur_first := nofun
  cur_none _ := .inr hw
  ordered := nofun
  covered _ _ hz := .inl (h.max_beats hc (hz.before hw))

/-- A word that is not zero, behind another one. -/
theorem skip (hw : w n ≠ 0) (hnone : cur.base = none) : Scanned w (n + 1) best cur where
  best_zeros b hb := (h.best_zeros b hb).mono (Nat.le_succ n)
  cur_zeros c hc := by
    rw [hnone] at hc
    cases hc
  cur_first := h.cur_first
  cur_none _ := .inr hw
  ordered := h.ordered
  covered b len hz := h.covered b len (hz.before hw)

theorem step : Scanned w (n + 1) (scanWord w best cur n).1 (scanWord w best cur n).2 := by
  unfold scanWord
  split
  · rename_i hw
    split
    · rename_i hnone
      exact h.start hw hnone
    · rename_i hsome
      obtain ⟨c, hc⟩ := Option.ne_none_iff_exists'.mp hsome
      exact h.extend hw hc
  · rename_i hw
    split
    · rename_i hsome
      obtain ⟨c, hc⟩ := Option.ne_none_iff_exists'.mp hsome
      exact h.close hw hc
    · rename_i hnone
      exact h.skip hw (Decidable.not_not.mp hnone)

end Scanned

theorem scanWords_scanned (w : Nat → Nat) (n : Nat) : Scanned w n (scanWords w n).1 (scanWords w n).2 := by
  induction n with
  | zero =>
    refine ⟨nofun, nofun, nofun, fun _ => .inl rfl, nofun, fun _ _ hz => ?_⟩
    have hpos := hz.pos
    have hle := hz.le
    omega
  | succ n ih => exact ih.step

theorem longestRun_zeros (w : Nat → Nat) : ∀ b ∈ (longestRun w).base, Zeros w 8 b (longestRun w).len := by
  have h := scanWords_scanned w 8
  unfold longestRun
  simp only
  split
  · exact h.max_zeros
  · exact h.best_zeros

theorem longestRun_beats {w : Nat → Nat} {b len : Nat} (hz : Zeros w 8 b len) : (longestRun w).Beats b len := by
  have h := scanWords_scanned w 8
  unfold longestRun
  simp only
  split
  · rename_i hcur
    obtain ⟨c, hc⟩ := Option.ne_none_iff_exists'.mp hcur
    exact h.max_beats hc hz
  · rename_i hcur
    rcases h.covered b len hz with hbeats | ⟨c, hc, -⟩
    · exact hbeats
    · rw [Decidable.not_not.mp hcur] at hc
      cases hc

/-- What the colons stand for are zero words, two of them or more. -/
theorem bestRun_zeros {w : Nat → Nat} {b : Nat} (h : (bestRun w).base = some b) :
    Zeros w 8 b (bestRun w).len ∧ 2 ≤ (bestRun w).len := by
  unfold bestRun at h ⊢
  simp only at h ⊢
  by_cases hlen : (longestRun w).base ≠ none ∧ (longestRun w).len < 2
  · rw [if_pos hlen] at h
    cases h
  · rw [if_neg hlen] at h ⊢
    refine ⟨longestRun_zeros w b h, ?_⟩
    by_contra hlt
    exact hlen ⟨by rw [h]; exact Option.some_ne_none b, by omega⟩

/-- No run of two zero words or more is longer than the one that the colons stand for, and those that are as long come
later. -/
theorem bestRun_longest {w : Nat → Nat} {b len : Nat} (hz : Zeros w 8 b len) (hlen : 2 ≤ len) :
    (bestRun w).Beats b len := by
  obtain ⟨b', hb', hle, hfirst⟩ := longestRun_beats hz
  unfold bestRun
  simp only
  rw [if_neg fun hshort => by omega]
  exact ⟨b', hb', hle, hfirst⟩

/-! ## What is printed -/

/-- A word of the address. -/
def hex (w : BitVec 16) : List Char := sprintfX w.toNat

/-- Words with colons between them. -/
def joined : List (BitVec 16) → List Char
  | [] => []
  | [w] => hex w
  | w :: ws => hex w ++ ':' :: joined ws

/-- Words with a colon in front of each one. -/
def tailed (ws : List (BitVec 16)) : List Char := ws.flatMap fun w => ':' :: hex w

/-- `n` words of the address, from the word `o` on. -/
def wordsAt (src : Buf) (o n : Nat) : List (BitVec 16) := (List.range' o n).map fun i => src.be16 (2 * i)

theorem wordsAt_length (src : Buf) (o n : Nat) : (wordsAt src o n).length = n := by
  rw [wordsAt, List.length_map, List.length_range']

theorem hex_length_le (w : BitVec 16) : (hex w).length ≤ 4 := by
  rw [hex, sprintfX, List.length_map]
  exact Numeral.length_le (by omega) (by omega) w.isLt

theorem joined_cons (w : BitVec 16) (ws : List (BitVec 16)) : joined (w :: ws) = hex w ++ tailed ws := by
  induction ws generalizing w with
  | nil => exact (List.append_nil (hex w)).symm
  | cons v ws ih =>
    rw [tailed, List.flatMap_cons, List.cons_append]
    change hex w ++ ':' :: joined (v :: ws) = _
    rw [ih v]
    rfl

theorem tailed_length_le (ws : List (BitVec 16)) : (tailed ws).length ≤ 5 * ws.length := by
  induction ws with
  | nil => exact Nat.le_refl 0
  | cons w ws ih =>
    have hw := hex_length_le w
    rw [tailed] at ih
    rw [tailed, List.flatMap_cons, List.length_append, List.length_cons, List.length_cons]
    omega

theorem joined_length_le (ws : List (BitVec 16)) : (joined ws).length ≤ 5 * ws.length := by
  cases ws with
  | nil => exact Nat.le_refl 0
  | cons w ws =>
    have hw := hex_length_le w
    have hws := tailed_length_le ws
    rw [joined_cons, List.length_append, List.length_cons]
    omega

section
variable {src : Buf} {best : ZeroRun}

/-- The loop at words that are printed. -/
theorem ntop6Loop_words {o n : Nat} (ho : 0 < o)
    (h : ∀ i, o ≤ i → i < o + n → ¬best.Inside i ∧ ¬(i = 6 ∧ encapsulated src best)) (is : List Nat) (tp : List Char) :
    ntop6Loop src best (List.range' o n ++ is) tp = ntop6Loop src best is (tp ++ tailed (wordsAt src o n)) := by
  induction n generalizing o tp with
  | zero => exact congrArg _ (List.append_nil tp).symm
  | succ n ih =>
    obtain ⟨hout, hfour⟩ := h o (Nat.le_refl o) (by omega)
    rw [List.range'_succ, List.cons_append, ntop6Loop, if_neg hout]
    simp only
    rw [if_neg hfour, if_pos (by omega), ih (Nat.succ_pos o) fun i hle hlt => h i (by omega) (by omega)]
    congr 1
    rw [wordsAt, wordsAt, List.range'_succ, List.map_cons, tailed, tailed, List.flatMap_cons, List.append_assoc,
      List.append_assoc]
    rfl

/-- The first words. -/
theorem ntop6Loop_first {n : Nat} (h : ∀ i < n, ¬best.Inside i ∧ ¬(i = 6 ∧ encapsulated src best)) (is : List Nat) :
    ntop6Loop src best (List.range' 0 n ++ is) [] = ntop6Loop src best is (joined (wordsAt src 0 n)) := by
  cases n with
  | zero => rfl
  | succ n =>
    obtain ⟨hout, hfour⟩ := h 0 (Nat.succ_pos n)
    rw [List.range'_succ, List.cons_append, ntop6Loop, if_neg hout]
    simp only
    rw [if_neg hfour, if_neg (not_not.mpr rfl), List.nil_append,
      ntop6Loop_words (Nat.succ_pos 0) (fun i _ hlt => h i (by omega))]
    congr 1
    rw [show wordsAt src 0 (n + 1) = src.be16 0 :: wordsAt src 1 n from rfl, joined_cons]
    rfl

/-- The loop inside of the run that the colons stand for. -/
theorem ntop6Loop_inside {o n : Nat} (h : ∀ i, o ≤ i → i < o + n → best.Inside i ∧ best.base ≠ some i) (is : List Nat)
    (tp : List Char) : ntop6Loop src best (List.range' o n ++ is) tp = ntop6Loop src best is tp := by
  induction n generalizing o with
  | zero => rfl
  | succ n ih =>
    obtain ⟨hin, hbase⟩ := h o (Nat.le_refl o) (by omega)
    rw [List.range'_succ, List.cons_append, ntop6Loop, if_pos hin, if_neg hbase]
    exact ih fun i hle hlt => h i (by omega) (by omega)

theorem ntop6Loop_run {b : Nat} (hb : best.base = some b) (hlen : 0 < best.len) (is : List Nat) (tp : List Char) :
    ntop6Loop src best (List.range' b best.len ++ is) tp = ntop6Loop src best is (tp ++ [':']) := by
  obtain ⟨n, hn⟩ := Nat.exists_eq_succ_of_ne_zero hlen.ne'
  rw [hn, List.range'_succ, List.cons_append, ntop6Loop, if_pos ⟨b, hb, by omega, by omega⟩, if_pos hb]
  apply ntop6Loop_inside
  intro i hle hlt
  refine ⟨⟨b, hb, by omega, by omega⟩, fun hi => ?_⟩
  have hbi : b = i := Option.some.inj (hb.symm.trans hi)
  omega

/-- Nothing is shortened. -/
theorem ntop6Loop_plain (hb : best.base = none) :
    ntop6Loop src best (List.range 8) [] = some (joined (wordsAt src 0 8)) := by
  rw [List.range_eq_range', ← List.append_nil (List.range' 0 8), ntop6Loop_first]
  · rfl
  · intro i _
    constructor
    · rintro ⟨b, hb', -⟩
      rw [hb] at hb'
      cases hb'
    · rintro ⟨-, hzero, -⟩
      rw [hb] at hzero
      cases hzero

/-- The words in front of the colons, the colons, and the words behind them. -/
theorem ntop6Loop_colons {b : Nat} (hb : best.base = some b) (hlen : 0 < best.len) (hend : b + best.len ≤ 8)
    (hfour : ¬encapsulated src best) : ntop6Loop src best (List.range 8) [] =
      some (joined (wordsAt src 0 b) ++ [':'] ++ tailed (wordsAt src (b + best.len) (8 - (b + best.len)))) := by
  have hout : ∀ i, i < b ∨ b + best.len ≤ i → ¬best.Inside i := by
    rintro i hi ⟨b', hb', hle, hlt⟩
    obtain rfl : b = b' := Option.some.inj (hb.symm.trans hb')
    omega
  have hsplit : List.range 8 = List.range' 0 b ++
      (List.range' b best.len ++ (List.range' (b + best.len) (8 - (b + best.len)) ++ [])) := by
    have hwhole := List.range'_append_1 (s := 0) (m := b) (n := best.len + (8 - (b + best.len)))
    rw [Nat.zero_add] at hwhole
    rw [List.append_nil, List.range'_append_1, hwhole, List.range_eq_range']
    congr 1
    omega
  rw [hsplit, ntop6Loop_first fun i hi => ⟨hout i (.inl hi), fun h => hfour h.2⟩, ntop6Loop_run hb hlen,
    ntop6Loop_words (by omega) fun i hle _ => ⟨hout i (.inr hle), fun h => hfour h.2⟩]
  rfl

/-- The first words are zero, and the last two are an IPv4 address. -/
theorem ntop6Loop_quad (h : encapsulated src best) : ∃ quad, inetNtop4 (fun k => src (12 + k)) 16 = some quad ∧
    ntop6Loop src best (List.range 8) [] =
      some (':' :: (tailed (wordsAt src best.len (6 - best.len)) ++ ':' :: quad)) := by
  obtain ⟨hb, hlen⟩ := h
  have hle : best.len ≤ 6 := by omega
  have htail := tailed_length_le (wordsAt src best.len (6 - best.len))
  rw [wordsAt_length] at htail
  obtain ⟨quad, hquad, -⟩ := inetNtop4_read (fun k => src (12 + k)) (Nat.le_refl 16)
  have hout : ∀ i, best.len ≤ i → ¬best.Inside i := by
    rintro i hi ⟨b, hb', -, hlt⟩
    obtain rfl : 0 = b := Option.some.inj (hb.symm.trans hb')
    omega
  have hsplit : List.range 8 = List.range' 0 best.len ++ (List.range' best.len (6 - best.len) ++ [6, 7]) := by
    rcases hlen with hlen | ⟨hlen, -⟩ <;>
    · rw [hlen]
      rfl
  refine ⟨quad, hquad, ?_⟩
  rw [hsplit, ntop6Loop_run hb (by omega), ntop6Loop_words (by omega) fun i hle hlt => ⟨hout i hle, fun hi => by omega⟩,
    ntop6Loop, if_neg (hout 6 hle)]
  simp only
  rw [if_pos ⟨trivial, hb, hlen⟩, if_pos (by omega)]
  have hroom : inetNtop4 (fun k => src (12 + k))
      (ntop6Size - ([] ++ [':'] ++ tailed (wordsAt src best.len (6 - best.len)) ++ [':']).length) = some quad := by
    rw [← hquad, inetNtop4_eq _ (Nat.le_refl 16)]
    apply inetNtop4_eq
    simp only [ntop6Size, List.length_append, List.length_cons, List.length_nil]
    omega
  rw [hroom]
  simp

end

theorem inetNtop6_of_loop {src : Buf} {size : Nat} {tp dst : List Char}
    (hloop : ntop6Loop src (bestRun (words src)) (List.range 8) [] = some tp)
    (htrail : (if (bestRun (words src)).base.map (· + (bestRun (words src)).len) = some 8 then tp ++ [':'] else tp) = dst)
    (hsize : dst.length < size) : inetNtop6 src size = some dst := by
  unfold inetNtop6
  simp only [hloop]
  rw [htrail, if_neg (by omega)]

/-- An address without two zero words in a row. -/
theorem inetNtop6_words (src : Buf) {size : Nat} (hsize : 46 ≤ size) (hb : (bestRun (words src)).base = none) :
    inetNtop6 src size = some (joined (wordsAt src 0 8)) := by
  have hlen := joined_length_le (wordsAt src 0 8)
  rw [wordsAt_length] at hlen
  apply inetNtop6_of_loop (ntop6Loop_plain hb)
  · rw [hb]
    rfl
  · omega

theorem tailed_eq {ws : List (BitVec 16)} (h : ws ≠ []) : tailed ws = ':' :: joined ws := by
  cases ws with
  | nil => exact absurd rfl h
  | cons w ws =>
    rw [joined_cons, tailed, List.flatMap_cons]
    rfl

/-- The colons stand for zero words. -/
theorem inetNtop6_colons (src : Buf) {size : Nat} (hsize : 46 ≤ size) {b len : Nat}
    (hbest : bestRun (words src) = ⟨some b, len⟩) (hfour : ¬encapsulated src ⟨some b, len⟩) :
    inetNtop6 src size =
      some (joined (wordsAt src 0 b) ++ ':' :: ':' :: joined (wordsAt src (b + len) (8 - (b + len)))) := by
  obtain ⟨hz, htwo⟩ := bestRun_zeros (show (bestRun (words src)).base = some b by rw [hbest])
  rw [hbest] at hz htwo
  have hend : b + len ≤ 8 := hz.le
  have hlen : 2 ≤ len := htwo
  have hpre := joined_length_le (wordsAt src 0 b)
  have hsuf := joined_length_le (wordsAt src (b + len) (8 - (b + len)))
  rw [wordsAt_length] at hpre hsuf
  have hloop := @ntop6Loop_colons src ⟨some b, len⟩ b rfl hz.pos hend hfour
  rw [← hbest] at hloop
  apply inetNtop6_of_loop hloop
  · simp only [hbest, Option.map_some, Option.some.injEq]
    by_cases hall : b + len = 8
    · -- nothing behind the zeros
      rw [if_pos hall, hall]
      simp [wordsAt, tailed, joined]
    · have hne : wordsAt src (b + len) (8 - (b + len)) ≠ [] := by
        apply List.ne_nil_of_length_pos
        rw [wordsAt_length]
        omega
      rw [if_neg hall, tailed_eq hne, List.append_assoc]
      rfl
  · simp only [List.length_append, List.length_cons]
    omega

/-- Of an address with zero words in a row, and others among the first five, the first one of its longest runs is left
out. -/
theorem inetNtop6_longest (src : Buf) {size : Nat} (hsize : 46 ≤ size) {c n : Nat} (hz : Zeros (words src) 8 c n)
    (hn : 2 ≤ n) (hfirst : ¬Zeros (words src) 8 0 5) :
    ∃ b len, Zeros (words src) 8 b len ∧
      (∀ c n, Zeros (words src) 8 c n → n ≤ len ∧ (n = len → b ≤ c)) ∧
      inetNtop6 src size =
        some (joined (wordsAt src 0 b) ++ ':' :: ':' :: joined (wordsAt src (b + len) (8 - (b + len)))) := by
  rcases hbest : bestRun (words src) with ⟨base, len⟩
  obtain ⟨b, hb, -⟩ := bestRun_longest hz hn
  rw [hbest] at hb
  obtain rfl : base = some b := hb
  obtain ⟨hrun, htwo⟩ := bestRun_zeros (congrArg ZeroRun.base hbest)
  rw [hbest] at hrun htwo
  have hlen : 2 ≤ len := htwo
  refine ⟨b, len, hrun, ?_, inetNtop6_colons src hsize hbest ?_⟩
  · intro c n hcn
    rcases Nat.lt_or_ge n 2 with hshort | hlong
    · omega
    · obtain ⟨b', hb', hle, hord⟩ := bestRun_longest hcn hlong
      rw [hbest] at hb' hle hord
      obtain rfl : b = b' := Option.some.inj hb'
      exact ⟨hle, hord⟩
  · rintro ⟨hzero, hfive⟩
    obtain rfl : b = 0 := Option.some.inj hzero
    simp only at hfive
    exact hfirst ⟨by decide, by decide, fun j _ hj => hrun.zero j (Nat.zero_le j) (by simp only; omega)⟩

/-- An address with two runs of two zero words. -/
def twoRuns : Buf := Buf.zero.store 0 [0x20, 0x01, 0x0d, 0xb8, 0, 0, 0, 0, 0, 1, 0, 0, 0, 0, 0, 1]

theorem inetNtop6_longest_two : ∃ b len, Zeros (words twoRuns) 8 b len ∧
    (∀ c n, Zeros (words twoRuns) 8 c n → n ≤ len ∧ (n = len → b ≤ c)) ∧ inetNtop6 twoRuns 46 =
      some (joined (wordsAt twoRuns 0 b) ++ ':' :: ':' :: joined (wordsAt twoRuns (b + len) (8 - (b + len)))) := by
  have hz : Zeros (words twoRuns) 8 5 2 := by
    refine ⟨by decide, by decide, fun j hle hlt => ?_⟩
    obtain rfl | rfl : j = 5 ∨ j = 6 := by omega
    · decide
    · decide
  refine inetNtop6_longest twoRuns (Nat.le_refl 46) hz (Nat.le_refl 2) fun h => ?_
  have hword : words twoRuns 0 ≠ 0 := by decide
  exact hword (h.zero 0 (Nat.le_refl 0) (by decide))

/-- An IPv4 address in the last two words. -/
theorem inetNtop6_quad (src : Buf) {size : Nat} (hsize : 46 ≤ size) (h : encapsulated src (bestRun (words src))) :
    ∃ quad, inetNtop4 (fun k => src (12 + k)) 16 = some quad ∧ inetNtop6 src size =
      some (':' :: (tailed (wordsAt src (bestRun (words src)).len (6 - (bestRun (words src)).len)) ++ ':' :: quad)) := by
  obtain ⟨quad, hquad, hloop⟩ := ntop6Loop_quad h
  obtain ⟨hb, hlen⟩ := h
  obtain ⟨dst, hdst, hshort, -⟩ := inetNtop4_read (fun k => src (12 + k)) (Nat.le_refl 16)
  obtain rfl : dst = quad := Option.some.inj (hdst.symm.trans hquad)
  refine ⟨dst, hquad, ?_⟩
  have htail := tailed_length_le (wordsAt src (bestRun (words src)).len (6 - (bestRun (words src)).len))
  rw [wordsAt_length] at htail
  apply inetNtop6_of_loop hloop
  · rw [hb, if_neg]
    simp only [Option.map_some, Option.some.injEq]
    omega
  · simp only [List.length_append, List.length_cons]
    omega

end Iperf2.Compat
