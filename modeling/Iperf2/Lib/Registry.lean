import Mathlib.Logic.Function.Basic
import Mathlib.Tactic.Common

/-!
# Registries: one shared value per key, kept while it has holders

A `Registry K V` maps a key that has holders to its value and the number of holders. The first `acquire` of a key
stores the value offered, later ones share it; the last `release` forgets it.

* `Counts r cnt` : the registry agrees with the number of holders of every key (`Counts.acquire`,
  `Counts.release`, `Counts.present_iff`);
* `Separate r` : two keys never share a value, kept when the values offered are new (`Separate.acquire`,
  `Separate.release`);
* `value_acquire_of_some`, `value_release` : a key keeps its value while it has holders;
* `holders` : the numbers of holders when the elements of a list are the holders, and how they change when an
  element is added or replaced;
* `Held` : a list of holders each of which has the value of its key (`Held.acquire`, `Held.release`,
  `Held.set_same`, `Held.exists_holder`).
-/

/-- The keys with holders, their shared values and the numbers of holders. -/
abbrev Registry (K V : Type*) := K → Option (V × Int)

namespace Registry

variable {K V : Type*}

/-- The registry agrees with the number of holders `cnt k` of every key. -/
def Counts (r : Registry K V) (cnt : K → Nat) : Prop :=
  ∀ k, match r k with
    | none => cnt k = 0
    | some (_, n) => n = cnt k ∧ 0 < cnt k

/-- Two keys never share a value. -/
def Separate (r : Registry K V) : Prop :=
  ∀ j k w m n, r j = some (w, m) → r k = some (w, n) → j = k

/-- The value a new holder of `k` gets when it offers `v`. -/
def shared (r : Registry K V) (k : K) (v : V) : V :=
  match r k with
  | none => v
  | some (w, _) => w

section Counts
variable {r : Registry K V} {cnt : K → Nat} {k : K} {w : V}

theorem Counts.of_none (h : Counts r cnt) (hk : r k = none) : cnt k = 0 := by
  have := h k
  rwa [hk] at this

theorem Counts.of_some {n : Int} (h : Counts r cnt) (hk : r k = some (w, n)) : n = cnt k ∧ 0 < cnt k := by
  have := h k
  rwa [hk] at this

/-- A key is there exactly when it has a holder. -/
theorem Counts.present_iff (h : Counts r cnt) : (∃ w n, r k = some (w, n)) ↔ 0 < cnt k := by
  cases hk : r k with
  | none => simp [h.of_none hk]
  | some p => exact ⟨fun _ => (h.of_some hk).2, fun _ => ⟨p.1, p.2, rfl⟩⟩

end Counts

variable [DecidableEq K]

/-- One more holder of `k`, which shares the value there or stores `v`. -/
def acquire (r : Registry K V) (k : K) (v : V) : Registry K V :=
  Function.update r k <| some <| match r k with
    | none => (v, 1)
    | some (w, n) => (w, n + 1)

/-- One holder of `k` less. -/
def release (r : Registry K V) (k : K) : Registry K V :=
  Function.update r k <| match r k with
    | none => none
    | some (w, n) => if n - 1 = 0 then none else some (w, n - 1)

variable {r : Registry K V} {cnt : K → Nat} {k : K} {v w : V}

theorem acquire_of_none (h : r k = none) : acquire r k v = Function.update r k (some (v, 1)) := by
  simp [acquire, h]

theorem acquire_of_some {n : Int} (h : r k = some (w, n)) :
    acquire r k v = Function.update r k (some (w, n + 1)) := by
  simp [acquire, h]

theorem acquire_ne {j : K} (h : j ≠ k) : acquire r k v j = r j := Function.update_of_ne h _ _

theorem release_ne {j : K} (h : j ≠ k) : release r k j = r j := Function.update_of_ne h _ _

/-- The last holder of a key takes it away. -/
theorem release_of_one (h : r k = some (w, 1)) : release r k = Function.update r k none := by
  simp [release, h]

/-- After an acquire the key has the value its holder got. -/
theorem acquire_self : ∃ n, acquire r k v k = some (shared r k v, n) := by
  unfold acquire shared
  rw [Function.update_self]
  cases r k with
  | none => exact ⟨1, rfl⟩
  | some p => exact ⟨p.2 + 1, rfl⟩

/-- A key that is there keeps its value when anyone acquires. -/
theorem value_acquire_of_some {j : K} {n : Int} (h : r j = some (w, n)) :
    ∃ n', acquire r k v j = some (w, n') := by
  by_cases hj : j = k
  · subst hj
    rw [acquire_of_some h, Function.update_self]
    exact ⟨n + 1, rfl⟩
  · exact ⟨n, by rw [acquire_ne hj, h]⟩

/-- What is still there after a release was there with that value. -/
theorem value_release {j : K} {n : Int} (h : release r k j = some (w, n)) : ∃ n', r j = some (w, n') := by
  by_cases hj : j = k
  · subst hj
    unfold release at h
    rw [Function.update_self] at h
    cases hr : r j with
    | none => simp [hr] at h
    | some p =>
      simp only [hr] at h
      split at h
      · cases h
      · cases h
        exact ⟨p.2, rfl⟩
  · exact ⟨n, by rw [← h, release_ne hj]⟩

theorem Counts.acquire (h : Counts r cnt) (k : K) (v : V) :
    Counts (acquire r k v) (Function.update cnt k (cnt k + 1)) := by
  intro j
  by_cases hj : j = k
  · subst hj
    cases hr : r j with
    | none => simp [acquire_of_none hr, h.of_none hr]
    | some p =>
      obtain ⟨hn, -⟩ := h.of_some hr
      simp [acquire_of_some hr, hn]
  · rw [acquire_ne hj, Function.update_of_ne hj]
    exact h j

theorem Counts.release (h : Counts r cnt) (hk : 0 < cnt k) :
    Counts (release r k) (Function.update cnt k (cnt k - 1)) := by
  intro j
  by_cases hj : j = k
  · subst hj
    cases hr : r j with
    | none => exact absurd (h.of_none hr) (by omega)
    | some p =>
      obtain ⟨hn, -⟩ := h.of_some hr
      simp only [Registry.release, Function.update_self, hr]
      by_cases hlast : p.2 - 1 = 0
      · rw [if_pos hlast]
        simp only
        omega
      · rw [if_neg hlast]
        simp only
        omega
  · rw [release_ne hj, Function.update_of_ne hj]
    exact h j

theorem Separate.acquire (h : Separate r) (k : K) (v : V) (hnew : ∀ j w n, r j = some (w, n) → w ≠ v) :
    Separate (acquire r k v) := by
  have hold : ∀ j w n, j ≠ k → Registry.acquire r k v j = some (w, n) → r j = some (w, n) := by
    intro j w n hj hw
    rwa [acquire_ne hj] at hw
  have hself : ∀ w n, Registry.acquire r k v k = some (w, n) → w = shared r k v := by
    intro w n hw
    obtain ⟨m, hm⟩ := acquire_self (r := r) (k := k) (v := v)
    rw [hm] at hw
    cases hw
    rfl
  -- a key other than `k` has another value than the one `k` shares
  have hne : ∀ j w n, j ≠ k → r j = some (w, n) → w ≠ shared r k v := by
    intro j w n hj hw heq
    cases hr : r k with
    | none => exact hnew j w n hw (by rw [heq, shared, hr])
    | some p =>
      rw [shared, hr] at heq
      exact hj (h j k w n p.2 hw (by rw [hr, heq]))
  intro i j w m n hi hj
  by_cases hik : i = k <;> by_cases hjk : j = k
  · rw [hik, hjk]
  · subst hik
    exact absurd (hself w m hi) (hne j w n hjk (hold j w n hjk hj))
  · subst hjk
    exact absurd (hself w n hj) (hne i w m hik (hold i w m hik hi))
  · exact h i j w m n (hold i w m hik hi) (hold j w n hjk hj)

theorem Separate.release (h : Separate r) (k : K) : Separate (release r k) := by
  intro i j w m n hi hj
  obtain ⟨m', hi⟩ := value_release hi
  obtain ⟨n', hj⟩ := value_release hj
  exact h i j w m' n' hi hj

/-! ## The holders of a list -/

section Holders
variable {α β : Type*} (holds : α → Option K) {l : List α} {a b : α} {i : Nat}

/-- How many elements of the list hold the key, when `holds` is what each of them holds. -/
def holders (l : List α) (k : K) : Nat := l.countP fun a => holds a = some k

theorem holders_pos : 0 < holders holds l k ↔ ∃ a ∈ l, holds a = some k := by
  simp [holders, List.countP_pos_iff]

theorem holders_map (f : β → α) (l : List β) : holders holds (l.map f) = holders (holds ∘ f) l := by
  funext k
  simp [holders, List.countP_map, Function.comp_def]

variable {holds}

theorem holders_append (h : holds a = some k) :
    holders holds (l ++ [a]) = Function.update (holders holds l) k (holders holds l k + 1) := by
  funext j
  by_cases hj : j = k
  · subst hj
    simp [holders, h]
  · rw [Function.update_of_ne hj]
    simp [holders, h, Ne.symm hj]

theorem holders_append_none (h : holds a = none) : holders holds (l ++ [a]) = holders holds l := by
  funext k
  simp [holders, h]

/-- An element is replaced: its key has a holder less, and the key of the other one a holder more. -/
theorem holders_set (ha : l[i]? = some a) (b : α) (j : K) :
    holders holds (l.set i b) j + (if holds a = some j then 1 else 0) =
      holders holds l j + if holds b = some j then 1 else 0 := by
  obtain ⟨hi, rfl⟩ := List.getElem?_eq_some_iff.mp ha
  have hpos : holds l[i] = some j → 0 < holders holds l j := fun hj =>
    (holders_pos holds).mpr ⟨l[i], List.getElem_mem hi, hj⟩
  unfold holders at hpos ⊢
  rw [List.countP_set hi]
  simp only [decide_eq_true_eq]
  by_cases hj : holds l[i] = some j
  · have := hpos hj
    rw [if_pos hj]
    omega
  · rw [if_neg hj]
    omega

/-- An element is replaced by one that holds the same. -/
theorem holders_set_same (ha : l[i]? = some a) (h : holds b = holds a) :
    holders holds (l.set i b) = holders holds l := by
  funext j
  have hset : holders holds (l.set i b) j + _ = _ := holders_set ha b j
  rw [h] at hset
  exact Nat.add_right_cancel hset

/-- An element that holds nothing is replaced by one that holds `k`. -/
theorem holders_set_gain (ha : l[i]? = some a) (hold : holds a = none) (hnew : holds b = some k) :
    holders holds (l.set i b) = Function.update (holders holds l) k (holders holds l k + 1) := by
  funext j
  have hset : holders holds (l.set i b) j + _ = _ := holders_set ha b j
  rw [hold, hnew] at hset
  by_cases hj : j = k
  · subst hj
    simpa using hset
  · simpa [Function.update_of_ne hj, Ne.symm hj] using hset

/-- An element that holds `k` is replaced by one that holds nothing. -/
theorem holders_set_drop (ha : l[i]? = some a) (hold : holds a = some k) (hnew : holds b = none) :
    holders holds (l.set i b) = Function.update (holders holds l) k (holders holds l k - 1) := by
  funext j
  have hset : holders holds (l.set i b) j + _ = _ := holders_set ha b j
  rw [hold, hnew] at hset
  by_cases hj : j = k
  · subst hj
    simp only [if_true, reduceCtorEq, if_false] at hset
    rw [Function.update_self]
    omega
  · simpa [Function.update_of_ne hj, Ne.symm hj] using hset

theorem holders_pos_of_get (ha : l[i]? = some a) (h : holds a = some k) : 0 < holders holds l k :=
  (holders_pos holds).mpr ⟨a, List.mem_of_getElem? ha, h⟩

/-- The list has the holders of the registry's keys, and what each of them has is the value of its key. -/
structure Held (holds : α → Option K) (val : α → V) (r : Registry K V) (l : List α) : Prop where
  counts : Counts r (holders holds l)
  value : ∀ a ∈ l, ∀ k, holds a = some k → ∃ n, r k = some (val a, n)

section Held
variable {val : α → V} {r : Registry K V} {v : V}

theorem Held.nil : Held holds val (fun _ => none) [] where
  counts := fun _ => rfl
  value := fun _ h => nomatch h

/-- A new holder that gets the shared value. -/
theorem Held.acquire (h : Held holds val r l) (ha : holds a = some k) (hv : val a = shared r k v) :
    Held holds val (acquire r k v) (l ++ [a]) where
  counts := by
    rw [holders_append ha]
    exact h.counts.acquire k v
  value := by
    intro b hb j hj
    rcases List.mem_append.mp hb with hb | hb
    · obtain ⟨n, hn⟩ := h.value b hb j hj
      exact value_acquire_of_some hn
    · cases List.mem_singleton.mp hb
      rw [ha, Option.some.injEq] at hj
      subst hj
      rw [hv]
      exact acquire_self

/-- A holder becomes one that holds nothing. -/
theorem Held.release (h : Held holds val r l) (ha : l[i]? = some a) (hold : holds a = some k)
    (hnew : holds b = none) : Held holds val (release r k) (l.set i b) := by
  have hcounts : Counts (Registry.release r k) (holders holds (l.set i b)) := by
    rw [holders_set_drop ha hold hnew]
    exact h.counts.release (holders_pos_of_get ha hold)
  refine ⟨hcounts, fun c hc j hj => ?_⟩
  -- the key of a holder that is left is still there, with the value it had
  obtain ⟨w, n, hn⟩ := hcounts.present_iff.mpr ((holders_pos holds).mpr ⟨c, hc, hj⟩)
  have hcl : c ∈ l := by
    rcases List.mem_or_eq_of_mem_set hc with hc | rfl
    · exact hc
    · rw [hnew] at hj
      cases hj
  obtain ⟨n', hn'⟩ := value_release hn
  obtain ⟨m, hm⟩ := h.value c hcl j hj
  rw [hn', Option.some.injEq, Prod.mk.injEq] at hm
  exact ⟨n, by rw [hn, hm.1]⟩

/-- A holder is replaced by one that holds and has the same. -/
theorem Held.set_same (h : Held holds val r l) (ha : l[i]? = some a) (hholds : holds b = holds a)
    (hval : val b = val a) : Held holds val r (l.set i b) where
  counts := by
    rw [holders_set_same ha hholds]
    exact h.counts
  value := by
    intro c hc j hj
    rcases List.mem_or_eq_of_mem_set hc with hc | rfl
    · exact h.value c hc j hj
    · rw [hval]
      exact h.value a (List.mem_of_getElem? ha) j (by rw [← hholds, hj])

/-- Two holders of one key have the same value. -/
theorem Held.value_unique (h : Held holds val r l) (ha : a ∈ l) (hb : b ∈ l) (hka : holds a = some k)
    (hkb : holds b = some k) : val a = val b := by
  obtain ⟨m, hm⟩ := h.value a ha k hka
  obtain ⟨n, hn⟩ := h.value b hb k hkb
  rw [hm, Option.some.injEq, Prod.mk.injEq] at hn
  exact hn.1

/-- A key without holders is not there. -/
theorem Held.eq_none (h : Held holds val r l) (hk : ¬ ∃ a ∈ l, holds a = some k) : r k = none := by
  cases hr : r k with
  | none => rfl
  | some p => exact absurd ((holders_pos holds).mp (h.counts.of_some hr).2) hk

/-- A value that is there is one some holder of the key has. -/
theorem Held.exists_holder (h : Held holds val r l) {w : V} {n : Int} (hk : r k = some (w, n)) :
    ∃ a ∈ l, holds a = some k ∧ val a = w := by
  obtain ⟨a, ha, hholds⟩ := (holders_pos holds).mp (h.counts.of_some hk).2
  obtain ⟨m, hm⟩ := h.value a ha k hholds
  rw [hk, Option.some.injEq, Prod.mk.injEq] at hm
  exact ⟨a, ha, hholds, hm.1.symm⟩

end Held

end Holders

end Registry
