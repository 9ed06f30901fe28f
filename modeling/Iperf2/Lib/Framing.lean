import Mathlib.Data.List.Basic

/-!
# Framed streams

A stream is cut into frames. A frame starts with a header of `h` elements, which has the size of the whole frame in it;
the rest of the frame is payload of any content. Writer and reader each count what is left of their own frame, and
there is nothing else that keeps them together.

* `Mark` : a header, and the position in the stream where it starts;
* `Between pos nleft marks pending left` : the stream between a reader and a writer; the reader stands at `pos` with
  `nleft` of its frame to come, then come the frames of `marks`, and the last frame lacks `left`;
* `Between.start`, `Between.frame`, `Between.put` : what the writer does;
* `Between.take`, `Between.header` : what the reader does. The header that it takes is the next one that was written;
* `Between.last` : where the last header is, and how much of its frame there is;
* `FramePrefix marks xs` : `xs` is the start of a stream of whole frames; `Between.framePrefix`,
  `FramePrefix.size_le`;
* `Continues header d xs` : `xs` goes on with a header of which `d` elements are there; `Continues.append_drop` and,
  back, `FramePrefix.continues`;
* `Aligned written seen` : the same with the headers written and seen so far; `Aligned.prefix`.
-/

namespace Framing

variable {α : Type*}

/-- A header and where it starts. -/
structure Mark (α : Type*) where
  offset : Nat
  header : List α

section
variable (h : Nat) (size : List α → Nat)

/-- The elements on the way: the rest of the reader's frame, then frames that start with these headers. -/
inductive Between : (pos nleft : Nat) → List (Mark α) → List α → (left : Nat) → Prop
  | inside {pos nleft left : Nat} {cur : List α} (hleft : cur.length + left = nleft) : Between pos nleft [] cur left
  | cons {pos nleft left : Nat} {cur header rest : List α} {marks : List (Mark α)} (hcur : cur.length = nleft)
      (hheader : header.length = h) (hsize : h ≤ size header)
      (hrest : Between (pos + nleft + h) (size header - h) marks rest left) :
      Between pos nleft (⟨pos + nleft, header⟩ :: marks) (cur ++ (header ++ rest)) left

end

section
variable {h : Nat} {size : List α → Nat} {pos nleft left : Nat} {marks : List (Mark α)} {pending xs : List α}

/-- Nothing is written yet. -/
theorem Between.start : Between h size 0 0 [] ([] : List α) 0 := .inside rfl

/-! ## The writer -/

/-- The writer sends payload of its frame. -/
theorem Between.put (between : Between h size pos nleft marks pending left) (hxs : xs.length ≤ left) :
    Between h size pos nleft marks (pending ++ xs) (left - xs.length) := by
  induction between with
  | inside hleft =>
    refine .inside ?_
    rw [List.length_append]
    omega
  | cons hcur hheader hsize _ ih =>
    rw [List.append_assoc, List.append_assoc]
    exact .cons hcur hheader hsize (ih hxs)

/-- At the end of its frame the writer starts the next one. -/
theorem Between.frame (between : Between h size pos nleft marks pending 0) {header : List α}
    (hheader : header.length = h) (hsize : h ≤ size header) :
    Between h size pos nleft (marks ++ [⟨pos + pending.length, header⟩]) (pending ++ header) (size header - h) := by
  generalize hzero : 0 = left at between
  induction between with
  | @inside pos nleft left cur hleft =>
    have hnleft : cur.length = nleft := by omega
    have hrest : Between h size (pos + nleft + h) (size header - h) [] [] (size header - h) :=
      .inside (Nat.zero_add _)
    have hframe := Between.cons hnleft hheader hsize hrest
    rw [List.append_nil] at hframe
    rw [hnleft]
    exact hframe
  | @cons pos nleft _ cur header' rest marks hcur hheader' hsize' _ ih =>
    have hoffset : pos + (cur ++ (header' ++ rest)).length = pos + nleft + h + rest.length := by
      rw [List.length_append, List.length_append, hcur, hheader']
      omega
    rw [hoffset, List.append_assoc, List.append_assoc]
    exact .cons hcur hheader' hsize' (ih hzero)

/-! ## The reader -/

/-- The reader takes payload of its frame. -/
theorem Between.take (between : Between h size pos nleft marks (xs ++ pending) left) (hxs : xs.length ≤ nleft) :
    Between h size (pos + xs.length) (nleft - xs.length) marks pending left := by
  generalize hall : xs ++ pending = all at between
  cases between with
  | inside hleft =>
    refine .inside ?_
    rw [← hall, List.length_append] at hleft
    omega
  | @cons _ _ _ cur header rest marks hcur hheader hsize hrest =>
    -- what the reader takes is part of the rest of its frame
    obtain ⟨cur', hcur'⟩ : xs <+: cur :=
      List.prefix_of_prefix_length_le ⟨pending, hall⟩ ⟨header ++ rest, rfl⟩ (by omega)
    subst hcur'
    rw [List.append_assoc] at hall
    rw [List.length_append] at hcur
    have hpos : pos + nleft = pos + xs.length + (nleft - xs.length) := by omega
    rw [List.append_cancel_left hall, hpos]
    rw [hpos] at hrest
    exact .cons (by omega) hheader hsize hrest

/-- At the end of its frame the reader takes `h` elements: they are the next header, as it was written at this
position. -/
theorem Between.header (between : Between h size pos 0 marks (xs ++ pending) left) (hpos : 0 < h) (hxs : xs.length = h) :
    ∃ marks', marks = ⟨pos, xs⟩ :: marks' ∧ h ≤ size xs ∧
      Between h size (pos + h) (size xs - h) marks' pending left := by
  generalize hall : xs ++ pending = all at between
  cases between with
  | inside hleft =>
    rw [← hall, List.length_append] at hleft
    omega
  | @cons _ _ _ cur header rest marks hcur hheader hsize hrest =>
    rw [List.eq_nil_of_length_eq_zero hcur, List.nil_append] at hall
    obtain ⟨rfl, rfl⟩ := List.append_inj hall (hxs.trans hheader.symm)
    exact ⟨marks, rfl, hsize, hrest⟩

/-! ## The last frame -/

/-- The last header is where its mark says, and what follows it is the rest of its frame. -/
theorem Between.last {m : Mark α} (between : Between h size pos nleft (marks ++ [m]) pending left) :
    ∃ front back, pending = front ++ (m.header ++ back) ∧ pos + front.length = m.offset ∧
      h + back.length + left = size m.header := by
  generalize hall : marks ++ [m] = all at between
  induction between generalizing marks with
  | inside hleft => exact absurd hall (List.append_ne_nil_of_right_ne_nil marks (List.cons_ne_nil m []))
  | @cons pos nleft left cur header rest all hcur hheader hsize hrest ih =>
    cases marks with
    | nil =>
      obtain ⟨rfl, rfl⟩ := List.cons.inj hall
      cases hrest with
      | inside hleft =>
        refine ⟨cur, rest, rfl, ?_, ?_⟩
        · rw [hcur]
        · dsimp only
          omega
    | cons first marks =>
      obtain ⟨-, hrest'⟩ := List.cons.inj hall
      obtain ⟨front, back, rfl, hoffset, hback⟩ := ih hrest'
      refine ⟨cur ++ (header ++ front), back, ?_, ?_, hback⟩
      · rw [List.append_assoc, List.append_assoc]
      · rw [List.length_append, List.length_append, hcur, hheader, ← hoffset]
        omega

end

/-! ## The start of a stream -/

/-- The elements are the start of a stream of whole frames with these headers. -/
def FramePrefix (h : Nat) (size : List α → Nat) (marks : List (Mark α)) (xs : List α) : Prop :=
  ∃ rest, Between h size 0 0 marks (xs ++ rest) 0

section
variable {h : Nat} {size : List α → Nat} {left : Nat} {marks : List (Mark α)} {pending xs : List α}

/-- The last frame can be filled up. -/
theorem Between.framePrefix [Inhabited α] (between : Between h size 0 0 marks (xs ++ pending) left) :
    FramePrefix h size marks xs := by
  refine ⟨pending ++ List.replicate left default, ?_⟩
  have hlen : (List.replicate left (default : α)).length = left := List.length_replicate
  have hput := between.put (Nat.le_of_eq hlen)
  rw [hlen, Nat.sub_self, List.append_assoc] at hput
  exact hput

/-- The elements go on with a header of which `d` are there, and behind it with anything. -/
def Continues (h : Nat) (header : List α) (d : Nat) (xs : List α) : Prop := xs.take (h - d) <+: header.drop d

instance [DecidableEq α] (header : List α) (d : Nat) : Decidable (Continues h header d xs) :=
  inferInstanceAs (Decidable (_ <+: _))

theorem continues_of_le {header : List α} {d : Nat} (hd : h ≤ d) : Continues h header d xs := by
  unfold Continues
  rw [Nat.sub_eq_zero_of_le hd, List.take_zero]
  exact List.nil_prefix

theorem continues_nil {header : List α} {d : Nat} : Continues h header d ([] : List α) := by
  unfold Continues
  rw [List.take_nil]
  exact List.nil_prefix

/-- First comes what is left of the header, then the rest. -/
theorem Continues.append_drop {header : List α} {d : Nat} (continues : Continues h header d xs)
    (hheader : header.length ≤ h) :
    xs ++ header.drop (d + xs.length) = header.drop d ++ xs.drop (h - d) := by
  obtain ⟨rest, hrest⟩ := continues
  by_cases hxs : xs.length ≤ h - d
  · -- within the header
    rw [List.take_of_length_le hxs] at hrest
    have hleft : header.drop (d + xs.length) = rest := by
      rw [← List.drop_drop, ← hrest, List.drop_left]
    rw [hleft, hrest, List.drop_eq_nil_of_le hxs, List.append_nil]
  · have hlength := congrArg List.length hrest
    rw [List.length_append, List.length_take, List.length_drop] at hlength
    obtain rfl : rest = [] := List.eq_nil_of_length_eq_zero (by omega)
    rw [List.append_nil] at hrest
    rw [List.drop_eq_nil_of_le (by omega), List.append_nil, ← hrest, List.take_append_drop]

/-- When a stream stays the start of frames with the same headers, it goes on with the last one. -/
theorem FramePrefix.continues {m : Mark α} {d : Nat} {ys : List α}
    (framePrefix : FramePrefix h size (marks ++ [m]) (xs ++ ys))
    (between : Between h size 0 0 (marks ++ [m]) (xs ++ m.header.drop d) (size m.header - h))
    (hheader : m.header.length = h) (hd : d ≤ h) : Continues h m.header d ys := by
  obtain ⟨rest, between'⟩ := framePrefix
  obtain ⟨front, back, hxs, hfront, hback⟩ := between.last
  obtain ⟨front', back', hys, hfront', -⟩ := between'.last
  have hlength := congrArg List.length hxs
  rw [List.length_append, List.length_append, List.length_append, List.length_drop] at hlength
  have hplace : xs.length = front'.length + d := by omega
  have htail : ys ++ rest = m.header.drop d ++ back' := by
    have hdrop := congrArg (List.drop xs.length) hys
    rw [List.append_assoc, List.drop_left, hplace, ← List.drop_drop, List.drop_left,
      List.drop_append_of_le_length (by omega)] at hdrop
    exact hdrop
  apply List.prefix_of_prefix_length_le
  · exact (List.take_prefix (h - d) ys).trans ⟨rest, htail⟩
  · exact List.prefix_append _ back'
  · rw [List.length_take, List.length_drop]
    omega

/-- The first header has the size of a frame. -/
theorem FramePrefix.size_le (framePrefix : FramePrefix h size marks xs) (hpos : 0 < h) (hxs : h ≤ xs.length) :
    h ≤ size (xs.take h) := by
  obtain ⟨rest, between⟩ := framePrefix
  rw [← List.take_append_drop h xs, List.append_assoc] at between
  have hlen : (xs.take h).length = h := List.length_take_of_le hxs
  obtain ⟨_, _, hsize, _⟩ := between.header hpos hlen
  exact hsize

end

/-! ## Both sides -/

/-- What the reader has seen and what is on the way is what was written. -/
def Aligned (h : Nat) (size : List α → Nat) (written seen : List (Mark α)) (pos nleft : Nat) (pending : List α)
    (left : Nat) : Prop :=
  ∃ marks, written = seen ++ marks ∧ Between h size pos nleft marks pending left

section
variable {h : Nat} {size : List α → Nat} {written seen : List (Mark α)} {pos nleft left : Nat} {pending xs : List α}

theorem Aligned.start : Aligned h size [] [] 0 0 ([] : List α) 0 := ⟨[], rfl, .start⟩

theorem Aligned.prefix (aligned : Aligned h size written seen pos nleft pending left) : seen <+: written := by
  obtain ⟨marks, hwritten, -⟩ := aligned
  exact ⟨marks, hwritten.symm⟩

theorem Aligned.put (aligned : Aligned h size written seen pos nleft pending left) (hxs : xs.length ≤ left) :
    Aligned h size written seen pos nleft (pending ++ xs) (left - xs.length) := by
  obtain ⟨marks, hwritten, between⟩ := aligned
  exact ⟨marks, hwritten, between.put hxs⟩

theorem Aligned.frame (aligned : Aligned h size written seen pos nleft pending 0) {header : List α}
    (hheader : header.length = h) (hsize : h ≤ size header) :
    Aligned h size (written ++ [⟨pos + pending.length, header⟩]) seen pos nleft (pending ++ header)
      (size header - h) := by
  obtain ⟨marks, hwritten, between⟩ := aligned
  exact ⟨_, by rw [hwritten, List.append_assoc], between.frame hheader hsize⟩

theorem Aligned.take (aligned : Aligned h size written seen pos nleft (xs ++ pending) left) (hxs : xs.length ≤ nleft) :
    Aligned h size written seen (pos + xs.length) (nleft - xs.length) pending left := by
  obtain ⟨marks, hwritten, between⟩ := aligned
  exact ⟨marks, hwritten, between.take hxs⟩

theorem Aligned.header (aligned : Aligned h size written seen pos 0 (xs ++ pending) left) (hpos : 0 < h)
    (hxs : xs.length = h) :
    h ≤ size xs ∧ Aligned h size written (seen ++ [⟨pos, xs⟩]) (pos + h) (size xs - h) pending left := by
  obtain ⟨marks, hwritten, between⟩ := aligned
  obtain ⟨marks', rfl, hsize, between⟩ := between.header hpos hxs
  exact ⟨hsize, marks', by rw [hwritten, List.append_assoc]; rfl, between⟩

end

end Framing
