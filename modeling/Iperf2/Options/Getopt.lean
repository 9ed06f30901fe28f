import Iperf2.Lib.Exchange
import Mathlib.Data.List.TakeWhile

/-!
# Options of a command line

A call of `gnu_getopt_long` returns the next option of `argv`. It comes back to the element it was in, and it moves the
elements that are no options behind those that are, so that the words of the command line come in another order while
they are read.

* `Getopt.call` : `_gnu_getopt_internal`, over the static variables; `decode` is what a call makes of an option element;
* `parse` : the loop of `Settings_ParseCommandLine`;
* `reads` : the command line read from left to right, with the options, the words of the options and the other words;
* `Getopt.call_none`, `Getopt.call_dashes`, `Getopt.call_option`, `Getopt.decoded_letters` : what the calls do;
* `parse_arrives` : they return what is read from left to right, and leave the words of the options in front.
-/

namespace Iperf2.Options
open Exchange

abbrev Word := List Char

/-! ## The source -/

/-- `struct option`. The variable of `flag` has a name, `NULL` is `none`. -/
structure LongOption (Flag : Type) where
  name : Word
  hasArg : Nat
  flag : Option Flag
  val : Char

/-- What a call gets from its caller. -/
structure Table (Flag : Type) where
  optstring : Word
  longopts : List (LongOption Flag)

/-- What a call returns: the option, `gnu_optarg`, and the flag that is set. -/
structure Returned (Flag : Type) where
  option : Char
  optarg : Option Word
  flag : Option (Flag × Char)
  deriving DecidableEq

/-- What a call makes of an option element: with what it returns, how far `gnu_optind` goes, and `nextchar`. -/
structure Decoded (Flag : Type) where
  returned : Returned Flag
  advance : Nat
  nextchar : Option Word

variable {Flag : Type}

/-- `my_index` -/
def myIndex (str : Word) (chr : Char) : Option Word :=
  match str.dropWhile (· ≠ chr) with
  | [] => none
  | temp => some temp

/-- The search of the long options: `pfound`, and `ambig && !exact`. -/
def findLong (given : Word) : List (LongOption Flag) → Option (LongOption Flag) → Bool →
    Option (LongOption Flag) × Bool
  | [], pfound, ambig => (pfound, ambig)
  | p :: longopts, pfound, ambig =>
    if given.isPrefixOf p.name then
      if given.length = p.name.length then (some p, false)
      else match pfound with
        | none => findLong given longopts (some p) ambig
        | some found => findLong given longopts (some found) true
    else findLong given longopts pfound ambig

/-- `return '?'` -/
def unknown (optarg : Option Word) (option : Char) : Returned Flag := ⟨option, optarg, none⟩

/-- `return optstring[0] == ':' ? ':' : '?'` -/
def missing (optstring : Word) : Char := if optstring.head? = some ':' then ':' else '?'

/-- A long option returns its value, or sets its flag and returns 0. -/
def LongOption.found (p : LongOption Flag) (optarg : Option Word) : Returned Flag :=
  match p.flag with
  | none => ⟨p.val, optarg, none⟩
  | some flag => ⟨Char.ofNat 0, optarg, some (flag, p.val)⟩

/-- An element that starts with two dashes. `next` is the element behind it. -/
def decodeLong (table : Table Flag) (nextchar : Word) (next : Option Word) : Decoded Flag :=
  let given := nextchar.takeWhile (· ≠ '=')
  let nameend := nextchar.dropWhile (· ≠ '=')
  match findLong given table.longopts none false with
  | (_, true) => ⟨unknown none '?', 1, some []⟩
  | (none, false) => ⟨unknown none '?', 1, some []⟩
  | (some p, false) =>
    match nameend with
    | _ :: optarg => if p.hasArg ≠ 0 then ⟨p.found (some optarg), 1, some []⟩ else ⟨unknown none '?', 1, some []⟩
    | [] =>
      if p.hasArg = 1 then
        match next with
        | some optarg => ⟨p.found (some optarg), 2, some []⟩
        | none => ⟨unknown none (missing table.optstring), 1, some []⟩
      else ⟨p.found none, 1, some []⟩

/-- The next letter of an element. The branch of `W;` is left out: no `optstring` of the program has it. -/
def decodeShort (table : Table Flag) (c : Char) (nextchar : Word) (next : Option Word) : Decoded Flag :=
  let advance := if nextchar = [] then 1 else 0
  match myIndex table.optstring c with
  | none => ⟨unknown none '?', advance, some nextchar⟩
  | some temp =>
    if c = ':' then ⟨unknown none '?', advance, some nextchar⟩
    else if temp[1]? = some ':' then
      if temp[2]? = some ':' then
        -- an option that accepts an argument optionally
        if nextchar ≠ [] then ⟨⟨c, some nextchar, none⟩, advance + 1, none⟩
        else ⟨⟨c, none, none⟩, advance, none⟩
      else
        -- an option that requires an argument
        if nextchar ≠ [] then ⟨⟨c, some nextchar, none⟩, advance + 1, none⟩
        else match next with
          | none => ⟨unknown none (missing table.optstring), advance, none⟩
          | some optarg => ⟨⟨c, some optarg, none⟩, advance + 1, none⟩
    else ⟨⟨c, none, none⟩, advance, some nextchar⟩

/-- The current option element, from `nextchar` on. A call does not come here with an empty `nextchar`. -/
def decode (table : Table Flag) (element nextchar : Word) (next : Option Word) : Decoded Flag :=
  if element[1]? = some '-' then decodeLong table nextchar next
  else match nextchar with
    | [] => ⟨unknown none '?', 1, none⟩
    | c :: nextchar => decodeShort table c nextchar next

inductive Ordering
  | requireOrder
  | permute
  | returnInOrder

/-- The static variables, and the command line. -/
structure Getopt where
  argv : Nat → Word
  argc : Nat
  gnuOptind : Nat
  firstNonopt : Nat
  lastNonopt : Nat
  nextchar : Option Word
  ordering : Ordering

/-- `_gnu_getopt_initialize`, when `optstring` starts with neither `-` nor `+`. -/
def Getopt.gnuGetoptInitialize (posixlyCorrect : Bool) (argc : Nat) (argv : Nat → Word) : Getopt where
  argv
  argc
  gnuOptind := 1
  firstNonopt := 1
  lastNonopt := 1
  nextchar := none
  ordering := if posixlyCorrect then .requireOrder else .permute

/-- `argv[i][0] != '-' || argv[i][1] == '\0'` -/
def nonoption (w : Word) : Bool := w.head? != some '-' || w.tail == []

namespace Getopt

/-- `exchange` -/
def exchange (s : Getopt) : Getopt :=
  { s with
    argv := loop s.argv s.firstNonopt s.lastNonopt s.gnuOptind
    firstNonopt := s.firstNonopt + (s.gnuOptind - s.lastNonopt)
    lastNonopt := s.gnuOptind }

/-- `while ( gnu_optind < argc && NONOPTION_P ) gnu_optind++`, for the `n` elements up to `argc`. -/
def skipNonoptions (argv : Nat → Word) : Nat → Nat → Nat
  | 0, i => i
  | n + 1, i => if nonoption (argv i) then skipNonoptions argv n (i + 1) else i

/-- The records of the elements that are no options. -/
def records (s : Getopt) : Getopt :=
  let s := { s with lastNonopt := min s.lastNonopt s.gnuOptind }
  { s with firstNonopt := min s.firstNonopt s.gnuOptind }

/-- Options that came behind such elements are moved in front of them, and more such elements are skipped. -/
def permuted (s : Getopt) : Getopt :=
  let s := if s.firstNonopt ≠ s.lastNonopt ∧ s.lastNonopt ≠ s.gnuOptind then s.exchange
    else if s.lastNonopt ≠ s.gnuOptind then { s with firstNonopt := s.gnuOptind }
    else s
  let s := { s with gnuOptind := skipNonoptions s.argv (s.argc - s.gnuOptind) s.gnuOptind }
  { s with lastNonopt := s.gnuOptind }

/-- The special element `--` means premature end of options. -/
def dashes (s : Getopt) : Getopt :=
  let s := { s with gnuOptind := s.gnuOptind + 1 }
  let s := if s.firstNonopt ≠ s.lastNonopt ∧ s.lastNonopt ≠ s.gnuOptind then s.exchange
    else if s.firstNonopt = s.lastNonopt then { s with firstNonopt := s.gnuOptind }
    else s
  { s with
    lastNonopt := s.argc
    gnuOptind := s.argc }

/-- The call goes on with the next element. -/
def nextElement (s : Getopt) : Getopt :=
  let s := s.records
  let s := match s.ordering with
    | .permute => s.permuted
    | _ => s
  if s.gnuOptind ≠ s.argc ∧ s.argv s.gnuOptind = ['-', '-'] then s.dashes else s

/-- The rest of the call, in an option element. -/
def decoded (table : Table Flag) (s : Getopt) (nextchar : Word) : Getopt × Option (Returned Flag) :=
  let next := if s.gnuOptind + 1 < s.argc then some (s.argv (s.gnuOptind + 1)) else none
  let d := decode table (s.argv s.gnuOptind) nextchar next
  ({ s with
    gnuOptind := s.gnuOptind + d.advance
    nextchar := d.nextchar }, some d.returned)

/-- Behind the dashes of an element. -/
def behindDashes (element : Word) : Word := element.drop (if element[1]? = some '-' then 2 else 1)

/-- `_gnu_getopt_internal`, with `longopts` and without `long_only`. -1 is `none`. -/
def call (table : Table Flag) (s : Getopt) : Getopt × Option (Returned Flag) :=
  match s.nextchar with
  | some (c :: nextchar) => s.decoded table (c :: nextchar)
  | _ =>
    let s := s.nextElement
    if s.gnuOptind = s.argc then
      ({ s with gnuOptind := if s.firstNonopt ≠ s.lastNonopt then s.firstNonopt else s.gnuOptind }, none)
    else if nonoption (s.argv s.gnuOptind) then
      match s.ordering with
      | .requireOrder => (s, none)
      | _ => ({ s with gnuOptind := s.gnuOptind + 1 },
          some ⟨Char.ofNat 1, some (s.argv s.gnuOptind), none⟩)
    else s.decoded table (behindDashes (s.argv s.gnuOptind))

end Getopt

/-- The loop of `Settings_ParseCommandLine`, at most `n` calls: what goes to `Settings_Interpret`. -/
def parse (table : Table Flag) : Nat → Getopt → Option (List (Returned Flag) × Getopt)
  | 0, _ => none
  | n + 1, s =>
    match s.call table with
    | (s, none) => some ([], s)
    | (s, some returned) => (parse table n s).map fun r => (returned :: r.1, r.2)

/-! ## From left to right -/

/-- What a command line says: the options, the words of the options, and the other words. -/
structure Line (Flag : Type) where
  returned : List (Returned Flag)
  options : List Word
  others : List Word

/-- The options of an element, and how many words they take. -/
def letters (table : Table Flag) (element : Word) (next : Option Word) : Word → List (Returned Flag) × Nat
  | [] => ([], 1)
  | c :: nextchar =>
    let d := decode table element (c :: nextchar) next
    match d.nextchar with
    | some (_ :: _) =>
      let r := letters table element next nextchar
      (d.returned :: r.1, r.2)
    | _ => ([d.returned], d.advance)

/-- A command line, the first `k` words of which belong to the option in front of it. -/
def reads (table : Table Flag) : Nat → List Word → Line Flag
  | _, [] => ⟨[], [], []⟩
  | k + 1, word :: words =>
    let line := reads table k words
    { line with options := word :: line.options }
  | 0, word :: words =>
    if nonoption word then
      let line := reads table 0 words
      { line with others := word :: line.others }
    else if word = ['-', '-'] then ⟨[], [word], words⟩
    else
      let r := letters table word words.head? (Getopt.behindDashes word)
      let line := reads table (r.2 - 1) words
      { line with
        returned := r.1 ++ line.returned
        options := word :: line.options }

/-! ## What is made of an element -/

/-- There are letters left in the element. -/
def Decoded.More (d : Decoded Flag) (nextchar : Word) : Prop :=
  d.nextchar = some nextchar ∧ nextchar ≠ [] ∧ d.advance = 0

/-- The element is used up, and the one behind it may be, too. -/
structure Decoded.Ends (d : Decoded Flag) (next : Option Word) : Prop where
  nextchar : d.nextchar = none ∨ d.nextchar = some []
  pos : 1 ≤ d.advance
  le : d.advance ≤ 1 + next.toList.length

theorem decodeLong_ends (table : Table Flag) (nextchar : Word) (next : Option Word) :
    (decodeLong table nextchar next).Ends next := by
  unfold decodeLong
  simp only
  split
  · exact ⟨.inr rfl, Nat.le_refl 1, Nat.le_add_right 1 _⟩
  · exact ⟨.inr rfl, Nat.le_refl 1, Nat.le_add_right 1 _⟩
  · split
    · split
      · exact ⟨.inr rfl, Nat.le_refl 1, Nat.le_add_right 1 _⟩
      · exact ⟨.inr rfl, Nat.le_refl 1, Nat.le_add_right 1 _⟩
    · split
      · split
        · exact ⟨.inr rfl, Nat.le_succ 1, Nat.le_refl 2⟩
        · exact ⟨.inr rfl, Nat.le_refl 1, Nat.le_refl 1⟩
      · exact ⟨.inr rfl, Nat.le_refl 1, Nat.le_add_right 1 _⟩

theorem decodeShort_cases (table : Table Flag) (c : Char) (nextchar : Word) (next : Option Word) :
    (decodeShort table c nextchar next).More nextchar ∨ (decodeShort table c nextchar next).Ends next := by
  by_cases hnil : nextchar = []
  · -- the last letter
    right
    unfold decodeShort
    simp only [hnil, ne_eq, not_true_eq_false, if_true, if_false]
    split
    · exact ⟨.inr rfl, Nat.le_refl 1, Nat.le_add_right 1 _⟩
    · split
      · exact ⟨.inr rfl, Nat.le_refl 1, Nat.le_add_right 1 _⟩
      · split
        · split
          · exact ⟨.inl rfl, Nat.le_refl 1, Nat.le_add_right 1 _⟩
          · split
            · exact ⟨.inl rfl, Nat.le_refl 1, Nat.le_refl 1⟩
            · exact ⟨.inl rfl, Nat.le_succ 1, Nat.le_refl 2⟩
        · exact ⟨.inr rfl, Nat.le_refl 1, Nat.le_add_right 1 _⟩
  · unfold decodeShort
    simp only [hnil, ne_eq, not_false_eq_true, if_true, if_false]
    split
    · exact .inl ⟨rfl, hnil, rfl⟩
    · split
      · exact .inl ⟨rfl, hnil, rfl⟩
      · split
        · -- the letters that are left are the argument
          split
          · exact .inr ⟨.inl rfl, Nat.le_refl 1, Nat.le_add_right 1 _⟩
          · exact .inr ⟨.inl rfl, Nat.le_refl 1, Nat.le_add_right 1 _⟩
        · exact .inl ⟨rfl, hnil, rfl⟩

theorem decode_cases (table : Table Flag) (element : Word) (c : Char) (nextchar : Word) (next : Option Word) :
    (decode table element (c :: nextchar) next).More nextchar ∨ (decode table element (c :: nextchar) next).Ends next := by
  unfold decode
  split
  · exact .inr (decodeLong_ends table (c :: nextchar) next)
  · exact decodeShort_cases table c nextchar next

theorem letters_more {table : Table Flag} {element nextchar : Word} {c : Char} {next : Option Word}
    (h : (decode table element (c :: nextchar) next).More nextchar) :
    letters table element next (c :: nextchar) =
      ((decode table element (c :: nextchar) next).returned :: (letters table element next nextchar).1,
        (letters table element next nextchar).2) := by
  obtain ⟨hnext, hne, -⟩ := h
  obtain ⟨d, rest, rfl⟩ := List.exists_cons_of_ne_nil hne
  rw [letters]
  simp only [hnext]

theorem letters_ends {table : Table Flag} {element nextchar : Word} {c : Char} {next : Option Word}
    (h : (decode table element (c :: nextchar) next).Ends next) :
    letters table element next (c :: nextchar) =
      ([(decode table element (c :: nextchar) next).returned], (decode table element (c :: nextchar) next).advance) := by
  rw [letters]
  rcases h.nextchar with hnone | hnil
  · simp only [hnone]
  · simp only [hnil]

/-! ## What is read from left to right -/

theorem reads_nonoptions (table : Table Flag) (ws us : List Word) (h : ∀ w ∈ ws, nonoption w = true) :
    reads table 0 (ws ++ us) = { reads table 0 us with others := ws ++ (reads table 0 us).others } := by
  induction ws with
  | nil => rfl
  | cons w ws ih =>
    rw [List.cons_append, reads, if_pos (h w List.mem_cons_self), ih fun v hv => h v (List.mem_cons_of_mem w hv)]
    rfl

theorem reads_taken (table : Table Flag) {k : Nat} {us : List Word} (h : k ≤ us.length) :
    reads table k us =
      { reads table 0 (us.drop k) with options := us.take k ++ (reads table 0 (us.drop k)).options } := by
  induction k generalizing us with
  | zero => rfl
  | succ k ih =>
    cases us with
    | nil => exact absurd h (Nat.not_succ_le_zero k)
    | cons u us =>
      rw [reads, ih (Nat.le_of_succ_le_succ h)]
      rfl

/-! ## What a call does -/

namespace Getopt

/-- The words of the options so far. -/
def options (s : Getopt) : List Word := slice s.argv 1 s.firstNonopt ++ slice s.argv s.lastNonopt s.gnuOptind

/-- The other words so far. -/
def others (s : Getopt) : List Word := slice s.argv s.firstNonopt s.lastNonopt

/-- The words that are not read yet. -/
def ahead (s : Getopt) : List Word := slice s.argv s.gnuOptind s.argc

/-- The records are in order, and so is the command line: options, other words, options behind them, words ahead. -/
structure Arranged (s : Getopt) : Prop where
  pos : 1 ≤ s.firstNonopt
  first_le : s.firstNonopt ≤ s.lastNonopt
  last_le : s.lastNonopt ≤ s.gnuOptind
  le_argc : s.gnuOptind ≤ s.argc
  ordering : s.ordering = .permute

/-- What no call changes. -/
def Same (s s' : Getopt) : Prop := s'.argc = s.argc ∧ s'.argv 0 = s.argv 0

theorem Same.trans {s s' s'' : Getopt} (h : Same s s') (h' : Same s' s'') : Same s s'' :=
  ⟨h'.1.trans h.1, h'.2.trans h.2⟩

theorem Arranged.records {s : Getopt} (h : s.Arranged) : s.records = s := by
  have hlast := Nat.min_eq_left h.last_le
  have hfirst := Nat.min_eq_left (h.first_le.trans h.last_le)
  unfold Getopt.records
  simp only [hlast, hfirst]

/-- The options behind other words change places with these. -/
theorem Arranged.exchange {s : Getopt} (h : s.Arranged) :
    s.exchange.Arranged ∧ Same s s.exchange ∧ s.exchange.lastNonopt = s.exchange.gnuOptind ∧
      s.exchange.options = s.options ∧ s.exchange.others = s.others ∧ s.exchange.ahead = s.ahead := by
  obtain ⟨hpos, hfirst, hlast, hargc, hpermute⟩ := h
  refine ⟨⟨?_, ?_, Nat.le_refl _, hargc, hpermute⟩, ⟨rfl, ?_⟩, rfl, ?_, ?_, ?_⟩
  · show 1 ≤ s.firstNonopt + (s.gnuOptind - s.lastNonopt)
    omega
  · show s.firstNonopt + (s.gnuOptind - s.lastNonopt) ≤ s.gnuOptind
    omega
  · exact loop_of_lt s.argv hfirst hlast hpos
  · have hfront : slice s.exchange.argv 1 s.firstNonopt = slice s.argv 1 s.firstNonopt :=
      slice_congr fun k _ hk => loop_of_lt s.argv hfirst hlast hk
    have hmoved : slice s.exchange.argv s.firstNonopt (s.firstNonopt + (s.gnuOptind - s.lastNonopt)) =
        slice s.argv s.lastNonopt s.gnuOptind := slice_loop_first s.argv hfirst hlast
    show slice s.exchange.argv 1 (s.firstNonopt + (s.gnuOptind - s.lastNonopt)) ++
      slice s.exchange.argv s.gnuOptind s.gnuOptind = _
    rw [slice_self, List.append_nil, slice_append _ hpos (Nat.le_add_right _ _), hfront, hmoved]
    rfl
  · exact slice_loop_last s.argv hfirst hlast
  · exact slice_congr fun k hk _ => loop_of_le s.argv hfirst hlast hk

/-- The state when the options are in front: by an exchange, or there was nothing to exchange. -/
theorem Arranged.front {s : Getopt} (h : s.Arranged) :
    let s' := if s.firstNonopt ≠ s.lastNonopt ∧ s.lastNonopt ≠ s.gnuOptind then s.exchange
      else if s.lastNonopt ≠ s.gnuOptind then { s with firstNonopt := s.gnuOptind }
      else s
    s'.ordering = .permute ∧ 1 ≤ s'.firstNonopt ∧ s'.firstNonopt ≤ s'.gnuOptind ∧ s'.gnuOptind = s.gnuOptind ∧ Same s s' ∧
      slice s'.argv 1 s'.firstNonopt = s.options ∧ slice s'.argv s'.firstNonopt s'.gnuOptind = s.others ∧
      s'.ahead = s.ahead := by
  intro s'
  have hpos := h.pos
  have hfirst := h.first_le
  have hlast := h.last_le
  by_cases hboth : s.firstNonopt ≠ s.lastNonopt ∧ s.lastNonopt ≠ s.gnuOptind
  · have hs' : s' = s.exchange := if_pos hboth
    obtain ⟨harranged, hsame, hlast', hoptions, hothers, hahead⟩ := h.exchange
    rw [hs']
    refine ⟨harranged.ordering, harranged.pos, harranged.first_le.trans harranged.last_le, rfl, hsame, ?_, ?_, hahead⟩
    · rw [← hoptions, Getopt.options, hlast', slice_self, List.append_nil]
    · rw [← hothers, Getopt.others, hlast']
  · by_cases hopts : s.lastNonopt ≠ s.gnuOptind
    · -- no other words yet
      have hs' : s' = { s with firstNonopt := s.gnuOptind } := (if_neg hboth).trans (if_pos hopts)
      have heq : s.firstNonopt = s.lastNonopt := by
        by_contra hne
        exact hboth ⟨hne, hopts⟩
      rw [hs']
      refine ⟨h.ordering, by simp only; omega, Nat.le_refl _, rfl, ⟨rfl, rfl⟩, ?_, ?_, rfl⟩
      · show slice s.argv 1 s.gnuOptind = slice s.argv 1 s.firstNonopt ++ slice s.argv s.lastNonopt s.gnuOptind
        rw [heq, ← slice_append s.argv (by omega) hlast]
      · show slice s.argv s.gnuOptind s.gnuOptind = slice s.argv s.firstNonopt s.lastNonopt
        rw [heq, slice_self, slice_self]
    · -- no options behind the other words
      have hs' : s' = s := (if_neg hboth).trans (if_neg hopts)
      have heq : s.lastNonopt = s.gnuOptind := Decidable.not_not.mp hopts
      rw [hs']
      refine ⟨h.ordering, hpos, hfirst.trans hlast, rfl, ⟨rfl, rfl⟩, ?_, ?_, rfl⟩
      · rw [Getopt.options, heq, slice_self, List.append_nil]
      · rw [Getopt.others, heq]

theorem skipNonoptions_spec (argv : Nat → Word) (n i : Nat) :
    i ≤ skipNonoptions argv n i ∧ skipNonoptions argv n i ≤ i + n ∧
      slice argv i (skipNonoptions argv n i) = (slice argv i (i + n)).takeWhile nonoption ∧
      slice argv (skipNonoptions argv n i) (i + n) = (slice argv i (i + n)).dropWhile nonoption := by
  induction n generalizing i with
  | zero =>
    rw [Nat.add_zero, slice_self]
    exact ⟨Nat.le_refl i, Nat.le_refl i, slice_self argv i, slice_self argv i⟩
  | succ n ih =>
    obtain ⟨hle, hle', htake, hdrop⟩ := ih (i + 1)
    rw [slice_cons argv (show i < i + (n + 1) by omega), List.takeWhile_cons, List.dropWhile_cons,
      show i + (n + 1) = i + 1 + n by omega, skipNonoptions]
    split
    · rename_i hnon
      refine ⟨by omega, hle', ?_, hdrop⟩
      rw [slice_cons argv (show i < _ by omega), htake]
    · rename_i hopt
      refine ⟨Nat.le_refl i, by omega, slice_self argv i, ?_⟩
      rw [slice_cons argv (show i < i + 1 + n by omega)]

/-- The words ahead up to the next option are other words. -/
theorem Arranged.permuted {s : Getopt} (h : s.Arranged) :
    s.permuted.Arranged ∧ Same s s.permuted ∧ s.permuted.lastNonopt = s.permuted.gnuOptind ∧
      slice s.permuted.argv 1 s.permuted.firstNonopt = s.options ∧
      slice s.permuted.argv s.permuted.firstNonopt s.permuted.gnuOptind =
        s.others ++ s.ahead.takeWhile nonoption ∧
      s.permuted.ahead = s.ahead.dropWhile nonoption := by
  have hfront := h.front
  unfold Getopt.permuted
  simp only at hfront ⊢
  generalize (if s.firstNonopt ≠ s.lastNonopt ∧ s.lastNonopt ≠ s.gnuOptind then s.exchange
    else if s.lastNonopt ≠ s.gnuOptind then { s with firstNonopt := s.gnuOptind } else s) = t at hfront ⊢
  obtain ⟨hpermute, hpos, hle, hoptind, hsame, hoptions, hothers, hahead⟩ := hfront
  have hargc : t.gnuOptind ≤ t.argc := by
    rw [hoptind, hsame.1]
    exact h.le_argc
  obtain ⟨hskip, hskip', htake, hdrop⟩ := skipNonoptions_spec t.argv (t.argc - t.gnuOptind) t.gnuOptind
  rw [Nat.add_sub_cancel' hargc] at hskip' htake hdrop
  refine ⟨⟨hpos, hle.trans hskip, Nat.le_refl _, hskip', hpermute⟩, hsame, trivial, hoptions, ?_, ?_⟩
  · show slice t.argv t.firstNonopt (skipNonoptions t.argv (t.argc - t.gnuOptind) t.gnuOptind) = _
    rw [slice_append t.argv hle hskip, hothers, htake, ← hahead]
    rfl
  · show slice t.argv (skipNonoptions t.argv (t.argc - t.gnuOptind) t.gnuOptind) t.argc = _
    rw [hdrop, ← hahead]
    rfl

/-- The call comes to the next element. -/
def AtElement (s : Getopt) : Prop := s.nextchar = none ∨ s.nextchar = some []

/-- The words behind `--` are other words. -/
theorem dashes_spec {s : Getopt} (h : s.Arranged) (hlast : s.lastNonopt = s.gnuOptind) {us : List Word}
    (hahead : s.ahead = ['-', '-'] :: us) :
    s.dashes.gnuOptind = s.dashes.argc ∧ s.dashes.lastNonopt = s.dashes.argc ∧ 1 ≤ s.dashes.firstNonopt ∧
      s.dashes.firstNonopt ≤ s.dashes.argc ∧ Same s s.dashes ∧ slice s.dashes.argv 1 s.dashes.firstNonopt = s.options ++ [['-', '-']] ∧
      slice s.dashes.argv s.dashes.firstNonopt s.dashes.argc = s.others ++ us := by
  have hlt : s.gnuOptind < s.argc := by
    have hlen := length_slice s.argv s.gnuOptind s.argc
    rw [show slice s.argv s.gnuOptind s.argc = _ from hahead, List.length_cons] at hlen
    omega
  have hcons := slice_cons s.argv hlt
  rw [show slice s.argv s.gnuOptind s.argc = _ from hahead, List.cons.injEq] at hcons
  -- the dashes are one more option
  have hnext : ({ s with gnuOptind := s.gnuOptind + 1 } : Getopt).Arranged :=
    ⟨h.pos, h.first_le, h.last_le.trans (Nat.le_succ _), hlt, h.ordering⟩
  have hoptions : ({ s with gnuOptind := s.gnuOptind + 1 } : Getopt).options = s.options ++ [['-', '-']] := by
    show slice s.argv 1 s.firstNonopt ++ slice s.argv s.lastNonopt (s.gnuOptind + 1) =
      slice s.argv 1 s.firstNonopt ++ slice s.argv s.lastNonopt s.gnuOptind ++ [['-', '-']]
    rw [hlast, slice_self, List.append_nil, slice_cons s.argv (Nat.lt_succ_self _), slice_self, ← hcons.1]
  have hdashes : s.dashes =
      let t : Getopt := { s with gnuOptind := s.gnuOptind + 1 }
      let u := if t.firstNonopt ≠ t.lastNonopt ∧ t.lastNonopt ≠ t.gnuOptind then t.exchange
        else if t.lastNonopt ≠ t.gnuOptind then { t with firstNonopt := t.gnuOptind } else t
      { u with
        lastNonopt := u.argc
        gnuOptind := u.argc } := by
    have hne : s.lastNonopt ≠ s.gnuOptind + 1 := by omega
    unfold Getopt.dashes
    by_cases hsame : s.firstNonopt = s.lastNonopt
    · simp [hsame, hne]
    · simp [hsame, hne]
  have hfront := hnext.front
  rw [hdashes]
  simp only at hfront ⊢
  generalize (if s.firstNonopt ≠ s.lastNonopt ∧ s.lastNonopt ≠ s.gnuOptind + 1 then _ else _ : Getopt) = u at hfront ⊢
  obtain ⟨hpermute, hpos, hle, hoptind, hsame, hopts, hothers, hahead'⟩ := hfront
  have hle' : u.gnuOptind ≤ u.argc := by
    rw [hoptind, hsame.1]
    exact hlt
  refine ⟨trivial, trivial, hpos, hle.trans hle', hsame, hopts.trans hoptions, ?_⟩
  have hrest : slice u.argv u.gnuOptind u.argc = us := hahead'.trans hcons.2.symm
  rw [slice_append u.argv hle hle', hothers, hrest]
  rfl

/-- At the end the words of the options are in front, and `gnu_optind` is behind them. -/
structure Arrives (s : Getopt) (line : Line Flag) (s' : Getopt) : Prop where
  options : slice s'.argv 1 s'.gnuOptind = s.options ++ line.options
  others : slice s'.argv s'.gnuOptind s'.argc = s.others ++ line.others
  pos : 1 ≤ s'.gnuOptind
  le_argc : s'.gnuOptind ≤ s'.argc
  same : Same s s'

theorem ahead_nil {s : Getopt} (h : s.Arranged) (hahead : s.ahead = []) : s.gnuOptind = s.argc := by
  have hlen := length_slice s.argv s.gnuOptind s.argc
  rw [show slice s.argv s.gnuOptind s.argc = [] from hahead, List.length_nil] at hlen
  have hle := h.le_argc
  omega

theorem ahead_cons {s : Getopt} {w : Word} {us : List Word} (hahead : s.ahead = w :: us) :
    s.gnuOptind < s.argc ∧ s.argv s.gnuOptind = w ∧ slice s.argv (s.gnuOptind + 1) s.argc = us := by
  have hlen := length_slice s.argv s.gnuOptind s.argc
  rw [show slice s.argv s.gnuOptind s.argc = _ from hahead, List.length_cons] at hlen
  have hlt : s.gnuOptind < s.argc := by omega
  have hcons := slice_cons s.argv hlt
  rw [show slice s.argv s.gnuOptind s.argc = _ from hahead, List.cons.injEq] at hcons
  exact ⟨hlt, hcons.1.symm, hcons.2.symm⟩

theorem call_element (table : Table Flag) {s : Getopt} (hat : s.AtElement) : s.call table =
    if s.nextElement.gnuOptind = s.nextElement.argc then
      ({ s.nextElement with gnuOptind := if s.nextElement.firstNonopt ≠ s.nextElement.lastNonopt
          then s.nextElement.firstNonopt else s.nextElement.gnuOptind }, none)
    else if nonoption (s.nextElement.argv s.nextElement.gnuOptind) then
      match s.nextElement.ordering with
      | .requireOrder => (s.nextElement, none)
      | _ => ({ s.nextElement with gnuOptind := s.nextElement.gnuOptind + 1 },
          some ⟨Char.ofNat 1, some (s.nextElement.argv s.nextElement.gnuOptind), none⟩)
    else s.nextElement.decoded table (behindDashes (s.nextElement.argv s.nextElement.gnuOptind)) := by
  unfold Getopt.call
  rcases hat with hnone | hnil
  · rw [hnone]
  · rw [hnil]

section
variable (table : Table Flag) {s : Getopt} (h : s.Arranged) (hat : s.AtElement)
include h

/-- What the call does first, in an order that permutes. -/
theorem Arranged.nextElement : s.nextElement =
    if s.permuted.gnuOptind ≠ s.permuted.argc ∧ s.permuted.argv s.permuted.gnuOptind = ['-', '-'] then s.permuted.dashes
    else s.permuted := by
  unfold Getopt.nextElement
  simp only [h.records, h.ordering]

include hat

/-- No option is ahead. -/
theorem call_none (hdrop : s.ahead.dropWhile nonoption = []) :
    ∃ s', s.call table = (s', none) ∧ s.Arrives (⟨[], [], s.ahead⟩ : Line Flag) s' := by
  obtain ⟨harranged, hsame, hlast, hoptions, hothers, hahead⟩ := h.permuted
  rw [hdrop] at hahead
  have hend := ahead_nil harranged hahead
  have htake : s.ahead.takeWhile nonoption = s.ahead := by
    rw [← List.append_nil (s.ahead.takeWhile nonoption), ← hdrop, List.takeWhile_append_dropWhile]
  have hfirst := harranged.first_le
  have hnext : s.nextElement = s.permuted := by
    rw [h.nextElement, if_neg fun hdashes => hdashes.1 hend]
  rw [call_element table hat, hnext, if_pos hend]
  refine ⟨_, rfl, ?_⟩
  have hoptind : (if s.permuted.firstNonopt ≠ s.permuted.lastNonopt then s.permuted.firstNonopt
      else s.permuted.gnuOptind) = s.permuted.firstNonopt := by
    split
    · rfl
    · omega
  rw [hoptind]
  refine ⟨?_, ?_, harranged.pos, ?_, hsame⟩
  · rw [List.append_nil]
    exact hoptions
  · show slice s.permuted.argv s.permuted.firstNonopt s.permuted.argc = _
    rw [← hend, hothers, htake]
  · show s.permuted.firstNonopt ≤ s.permuted.argc
    omega

/-- `--` is the next option element. -/
theorem call_dashes {us : List Word} (hdrop : s.ahead.dropWhile nonoption = ['-', '-'] :: us) :
    ∃ s', s.call table = (s', none) ∧
      s.Arrives (⟨[], [['-', '-']], s.ahead.takeWhile nonoption ++ us⟩ : Line Flag) s' := by
  obtain ⟨harranged, hsame, hlast, hoptions, hothers, hahead⟩ := h.permuted
  rw [hdrop] at hahead
  obtain ⟨hlt, hword, -⟩ := ahead_cons hahead
  obtain ⟨hend, hlast', hpos, hle, hsame', hoptions', hothers'⟩ := dashes_spec harranged hlast hahead
  have hnext : s.nextElement = s.permuted.dashes := by
    rw [h.nextElement, if_pos ⟨Nat.ne_of_lt hlt, hword⟩]
  rw [call_element table hat, hnext, if_pos hend]
  refine ⟨_, rfl, ?_⟩
  have hoptind : (if s.permuted.dashes.firstNonopt ≠ s.permuted.dashes.lastNonopt then s.permuted.dashes.firstNonopt
      else s.permuted.dashes.gnuOptind) = s.permuted.dashes.firstNonopt := by
    split
    · rfl
    · omega
  have hopts : s.permuted.options = s.options := by
    rw [Getopt.options, hlast, slice_self, List.append_nil, hoptions]
  have hoths : s.permuted.others = s.others ++ s.ahead.takeWhile nonoption := by
    rw [Getopt.others, hlast, hothers]
  rw [hoptind]
  refine ⟨?_, ?_, hpos, hle, hsame.trans hsame'⟩
  · rw [← hopts]
    exact hoptions'
  · rw [← List.append_assoc, ← hoths]
    exact hothers'

/-- The next option element. -/
theorem call_option {w : Word} {us : List Word} (hdrop : s.ahead.dropWhile nonoption = w :: us)
    (hw : w ≠ ['-', '-']) : s.call table = s.permuted.decoded table (behindDashes w) := by
  obtain ⟨harranged, hsame, hlast, hoptions, hothers, hahead⟩ := h.permuted
  rw [hdrop] at hahead
  obtain ⟨hlt, hword, -⟩ := ahead_cons hahead
  have hoption : ¬nonoption w = true := by
    have hhead := List.head?_dropWhile_not nonoption s.ahead
    rw [hdrop] at hhead
    simpa using hhead
  have hnext : s.nextElement = s.permuted := by
    rw [h.nextElement, hword, if_neg fun hdashes => hw hdashes.2]
  rw [call_element table hat, hnext, if_neg (Nat.ne_of_lt hlt), hword, if_neg hoption]

end

/-- Calls that return something, one after the other. -/
inductive Calls (table : Table Flag) : Getopt → List (Returned Flag) → Getopt → Prop
  | nil (s : Getopt) : Calls table s [] s
  | cons {s s₁ s' : Getopt} {r : Returned Flag} {rs : List (Returned Flag)} (hcall : s.call table = (s₁, some r))
      (hrest : Calls table s₁ rs s') : Calls table s (r :: rs) s'

theorem Calls.parse {table : Table Flag} {s s' s'' : Getopt} {rs rs' : List (Returned Flag)} {n : Nat}
    (h : Calls table s rs s') (hparse : parse table n s' = some (rs', s'')) :
    Options.parse table (rs.length + n) s = some (rs ++ rs', s'') := by
  induction h with
  | nil s =>
    rw [List.length_nil, Nat.zero_add]
    exact hparse
  | cons hcall hrest ih =>
    rw [List.length_cons, Nat.add_right_comm, Options.parse, hcall]
    simp only
    rw [ih hparse]
    rfl

theorem next_eq {s : Getopt} {w : Word} {us : List Word} (hahead : s.ahead = w :: us) :
    (if s.gnuOptind + 1 < s.argc then some (s.argv (s.gnuOptind + 1)) else none) = us.head? := by
  obtain ⟨-, -, hrest⟩ := ahead_cons hahead
  split
  · rename_i hlt
    rw [slice_cons s.argv hlt] at hrest
    rw [← hrest]
    rfl
  · rename_i hge
    have hlen := length_slice s.argv (s.gnuOptind + 1) s.argc
    rw [hrest] at hlen
    rw [List.length_eq_zero_iff.mp (show us.length = 0 by omega)]
    rfl

theorem decoded_eq (table : Table Flag) {s : Getopt} {w : Word} {us : List Word} (hahead : s.ahead = w :: us)
    (nextchar : Word) : s.decoded table nextchar =
      ({ s with
        gnuOptind := s.gnuOptind + (decode table w nextchar us.head?).advance
        nextchar := (decode table w nextchar us.head?).nextchar }, some (decode table w nextchar us.head?).returned) := by
  obtain ⟨-, hword, -⟩ := ahead_cons hahead
  unfold Getopt.decoded
  simp only [next_eq hahead, hword]

/-- The calls in an element return its options, and come to the element behind it, or behind its argument. -/
theorem decoded_letters (table : Table Flag) {w : Word} {us : List Word} (c : Char) (nextchar : Word) {s : Getopt}
    (hahead : s.ahead = w :: us) :
    ∃ r rs k s₁ m, s.decoded table (c :: nextchar) = (s₁, some r) ∧
      letters table w us.head? (c :: nextchar) = (r :: rs, k) ∧ 1 ≤ k ∧ k ≤ 1 + us.length ∧
      (m = none ∨ m = some []) ∧ Calls table s₁ rs { s with
        gnuOptind := s.gnuOptind + k
        nextchar := m } := by
  have hlen : us.head?.toList.length ≤ us.length := by
    cases us <;> simp
  induction nextchar generalizing c s with
  | nil =>
    rcases decode_cases table w c [] us.head? with hmore | hends
    · exact absurd rfl hmore.2.1
    · exact ⟨_, [], _, _, _, decoded_eq table hahead [c], letters_ends hends, hends.pos, hends.le.trans (by omega),
        hends.nextchar, .nil _⟩
  | cons c' nextchar ih =>
    rcases decode_cases table w c (c' :: nextchar) us.head? with hmore | hends
    · -- the next call comes back to this element
      have hnext := decoded_eq table hahead (c :: c' :: nextchar)
      obtain ⟨r, rs, k, s₁, m, hdecoded, hletters, hpos, hle, hm, hcalls⟩ :=
        @ih c' { s with nextchar := some (c' :: nextchar) } hahead
      rw [hmore.1, hmore.2.2, Nat.add_zero] at hnext
      refine ⟨(decode table w (c :: c' :: nextchar) us.head?).returned, r :: rs, k, _, m, hnext, ?_, hpos, hle, hm, ?_⟩
      · rw [letters_more hmore, hletters]
      · exact .cons hdecoded hcalls
    · exact ⟨_, [], _, _, _, decoded_eq table hahead _, letters_ends hends, hends.pos, hends.le.trans (by omega),
        hends.nextchar, .nil _⟩

/-- `gnu_optind` goes on by `k` words, which are words of options. -/
theorem Arranged.advance {s : Getopt} (h : s.Arranged) {k : Nat} (hk : k ≤ s.ahead.length) (nextchar : Option Word) :
    let s' : Getopt := { s with
      gnuOptind := s.gnuOptind + k
      nextchar := nextchar }
    s'.Arranged ∧ s'.options = s.options ++ s.ahead.take k ∧ s'.ahead = s.ahead.drop k := by
  intro s'
  have hlast := h.last_le
  have hargc : s.gnuOptind + k ≤ s.argc := by
    rw [Getopt.ahead, length_slice] at hk
    have hle := h.le_argc
    omega
  have hsplit : s.ahead = slice s.argv s.gnuOptind (s.gnuOptind + k) ++ slice s.argv (s.gnuOptind + k) s.argc :=
    slice_append s.argv (Nat.le_add_right _ k) hargc
  have hlen : (slice s.argv s.gnuOptind (s.gnuOptind + k)).length = k := by
    rw [length_slice, Nat.add_sub_cancel_left]
  refine ⟨⟨h.pos, h.first_le, by simp only [s']; omega, hargc, h.ordering⟩, ?_, ?_⟩
  · show slice s.argv 1 s.firstNonopt ++ slice s.argv s.lastNonopt (s.gnuOptind + k) = _
    rw [hsplit, List.take_left' hlen, slice_append s.argv hlast (Nat.le_add_right _ k), ← List.append_assoc]
    rfl
  · rw [hsplit, List.drop_left' hlen]
    rfl

end Getopt

open Getopt

/-- An option starts with a dash, and there is more behind it. -/
theorem behindDashes_ne_nil {w : Word} (h : nonoption w = false) (hw : w ≠ ['-', '-']) : behindDashes w ≠ [] := by
  unfold behindDashes
  rcases w with _ | ⟨c, _ | ⟨d, rest⟩⟩
  · cases h
  · simp [nonoption] at h
  · have hc : c = '-' := by simpa [nonoption] using h
    by_cases hd : d = '-'
    · rw [hc, hd] at hw
      simpa [hd] using hw
    · simp [hd]

theorem reads_option (table : Table Flag) {w : Word} {us : List Word} (h : nonoption w = false) (hw : w ≠ ['-', '-'])
    {rs : List (Returned Flag)} {k : Nat} (hletters : letters table w us.head? (behindDashes w) = (rs, k))
    (hle : k - 1 ≤ us.length) : reads table 0 (w :: us) =
      ⟨rs ++ (reads table 0 (us.drop (k - 1))).returned,
        w :: (us.take (k - 1) ++ (reads table 0 (us.drop (k - 1))).options),
        (reads table 0 (us.drop (k - 1))).others⟩ := by
  rw [reads, h, if_neg Bool.false_ne_true, if_neg hw, hletters]
  simp only
  rw [reads_taken table hle]

theorem mem_takeWhile_nonoption {ws : List Word} : ∀ w ∈ ws.takeWhile nonoption, nonoption w = true :=
  fun _ hw => List.mem_takeWhile_imp hw

/-- From an element on, the calls return what is read from left to right. -/
theorem parse_arrives (table : Table Flag) {s : Getopt} (h : s.Arranged) (hat : s.AtElement) :
    ∃ n s', parse table n s = some ((reads table 0 s.ahead).returned, s') ∧ s.Arrives (reads table 0 s.ahead) s' := by
  induction hlen : s.ahead.length using Nat.strongRecOn generalizing s with
  | ind len ih =>
    have hsplit : s.ahead.takeWhile nonoption ++ s.ahead.dropWhile nonoption = s.ahead :=
      List.takeWhile_append_dropWhile
    have hreads := reads_nonoptions table _ (s.ahead.dropWhile nonoption) (@mem_takeWhile_nonoption s.ahead)
    rw [hsplit] at hreads
    rcases hdrop : s.ahead.dropWhile nonoption with _ | ⟨w, us⟩
    · -- no option is left
      obtain ⟨s', hcall, harrives⟩ := call_none table h hat hdrop
      rw [hdrop, List.append_nil] at hsplit
      have hempty : reads table 0 [] = ⟨[], [], []⟩ := rfl
      rw [hdrop, hsplit, hempty, List.append_nil] at hreads
      refine ⟨1, s', ?_, hreads ▸ harrives⟩
      rw [hreads, parse, hcall]
    · have hoption : nonoption w = false := by
        have hhead := List.head?_dropWhile_not nonoption s.ahead
        rw [hdrop] at hhead
        simpa using hhead
      rw [hdrop] at hreads
      by_cases hw : w = ['-', '-']
      · -- the rest are no options
        rw [hw] at hdrop hreads
        obtain ⟨s', hcall, harrives⟩ := call_dashes table h hat hdrop
        have hdashes : reads table 0 (['-', '-'] :: us) = ⟨[], [['-', '-']], us⟩ := rfl
        rw [hdashes] at hreads
        refine ⟨1, s', ?_, hreads ▸ harrives⟩
        rw [hreads, parse, hcall]
      · obtain ⟨harranged, hsame, hlast, hoptions, hothers, hahead⟩ := h.permuted
        rw [hdrop] at hahead
        obtain ⟨c, nextchar, hbehind⟩ := List.exists_cons_of_ne_nil (behindDashes_ne_nil hoption hw)
        obtain ⟨r, rs, k, s₁, m, hdecoded, hletters, hpos, hle, hm, hcalls⟩ :=
          decoded_letters table c nextchar hahead
        have hcall := call_option table h hat hdrop hw
        rw [hbehind, hdecoded] at hcall
        have hk : k ≤ s.permuted.ahead.length := by
          rw [hahead, List.length_cons]
          omega
        obtain ⟨harranged', hoptions', hahead'⟩ := harranged.advance hk m
        have hdropped : (w :: us).drop k = us.drop (k - 1) := by
          rw [show k = k - 1 + 1 by omega]
          rfl
        have htaken : (w :: us).take k = w :: us.take (k - 1) := by
          conv_lhs => rw [show k = k - 1 + 1 by omega]
          rfl
        rw [hahead, hdropped] at hahead'
        rw [hahead, htaken] at hoptions'
        -- the words from there on are fewer
        have hfewer : (us.drop (k - 1)).length < len := by
          rw [← hlen, ← hsplit, hdrop, List.length_append, List.length_cons, List.length_drop]
          omega
        obtain ⟨n, s', hparse, harrives⟩ := ih _ hfewer harranged' hm (by rw [hahead'])
        rw [hahead'] at hparse harrives
        rw [← hbehind] at hletters
        rw [reads_option table hoption hw hletters (by omega)] at hreads
        refine ⟨(r :: rs).length + n, s', ?_, ?_⟩
        · rw [hreads]
          exact (Calls.cons hcall hcalls).parse hparse
        · rw [hreads]
          have hopts : s.permuted.options = s.options := by
            rw [Getopt.options, hlast, slice_self, List.append_nil, hoptions]
          have hoths : s.permuted.others = s.others ++ s.ahead.takeWhile nonoption := by
            rw [Getopt.others, hlast, hothers]
          refine ⟨?_, ?_, harrives.pos, harrives.le_argc, hsame.trans harrives.same⟩
          · rw [harrives.options, hoptions', hopts, List.append_assoc]
            rfl
          · rw [harrives.others, ← List.append_assoc, ← hoths]
            rfl

/-! ## The two lists -/

/-- Every word is in one of the two lists, and both are in the order of the command line. -/
theorem reads_words (table : Table Flag) (k : Nat) (words : List Word) :
    ((reads table k words).options ++ (reads table k words).others).Perm words ∧
      (reads table k words).options.Sublist words ∧ (reads table k words).others.Sublist words := by
  induction words generalizing k with
  | nil => cases k <;> exact ⟨.refl [], .refl [], .refl []⟩
  | cons word words ih =>
    match k with
    | k + 1 =>
      obtain ⟨hperm, hopts, hoths⟩ := ih k
      exact ⟨hperm.cons word, hopts.cons_cons word, hoths.cons word⟩
    | 0 =>
      rw [reads]
      split
      · obtain ⟨hperm, hopts, hoths⟩ := ih 0
        exact ⟨List.perm_middle.trans (hperm.cons word), hopts.cons word, hoths.cons_cons word⟩
      · split
        · exact ⟨.refl _, (List.nil_sublist words).cons_cons word, (List.Sublist.refl words).cons word⟩
        · obtain ⟨hperm, hopts, hoths⟩ := ih
            ((letters table word words.head? (behindDashes word)).2 - 1)
          exact ⟨hperm.cons word, hopts.cons_cons word, hoths.cons word⟩

end Iperf2.Options
