import DispatchGraph.Sorted
import Mathlib.Data.List.Dedup
import Mathlib.Data.List.Nodup

/-!
# Membership and lookup in ordered collections

A list in strictly increasing order of a key is determined by its elements, and its elements by
their keys. So an ordered collection may be asked for an element by its key (`Sorted.find?_eq_some`,
`Sorted.find?_insert`, `SortedMap.get?_eq_some`), and two of them are equal when they hold the same
elements (`Sorted.ext_mem`). Of the operations only membership is said: what a collection holds
after an element was added (`Sorted.mem_insert_iff`), what one made from a list holds
(`SortedSet.mem_ofList`, `Sorted.mem_ofList_of_nodup`, `Sorted.find?_ofList`), and what a map holds
after an entry was put (`SortedMap.get?_put_self`, `SortedMap.get?_put_of_ne`).
-/

namespace DispatchGraph

open Std

variable {α κ : Type} [Ord κ] [TransOrd κ] {key : α → κ}

/-! ## Increasing lists -/

theorem Increasing.nodup {xs : List α} (h : Increasing key xs) : xs.Nodup := by
  refine List.Pairwise.imp (fun {a b} hab => ?_) h
  rintro rfl
  simp at hab

/-- No two elements of an increasing list have the same key. -/
theorem Increasing.eq_of_key_eq {xs : List α} (h : Increasing key xs) {a b : α} (ha : a ∈ xs)
    (hb : b ∈ xs) (hk : key a = key b) : a = b := by
  induction xs with
  | nil => simp at ha
  | cons c cs ih =>
    obtain ⟨hc, hcs⟩ := List.pairwise_cons.1 h
    have hne : ∀ d ∈ cs, key c ≠ key d := by
      intro d hd hcd
      have hlt := hc d hd
      simp [hcd] at hlt
    rcases List.mem_cons.1 ha with rfl | hac
    · rcases List.mem_cons.1 hb with rfl | hbc
      · rfl
      · exact absurd hk (hne b hbc)
    · rcases List.mem_cons.1 hb with rfl | hbc
      · exact absurd hk.symm (hne a hac)
      · exact ih hcs hac hbc

/-- An increasing list is determined by its elements. -/
theorem Increasing.ext_mem {xs ys : List α} (hx : Increasing key xs) (hy : Increasing key ys)
    (h : ∀ a, a ∈ xs ↔ a ∈ ys) : xs = ys := by
  have hperm : xs.Perm ys := (List.perm_ext_iff_of_nodup hx.nodup hy.nodup).2 h
  refine hperm.eq_of_pairwise (fun a b _ _ hab hba => ?_) hx hy
  exact absurd hba (OrientedCmp.not_lt_of_lt hab)

/-- Sorting puts items in order of their keys. -/
theorem pairwise_mergeSort_key (key : α → κ) (xs : List α) :
    (xs.mergeSort fun a b => (compare (key a) (key b)).isLE).Pairwise
      fun a b => (compare (key a) (key b)).isLE = true := by
  refine List.pairwise_mergeSort (fun a b c hab hbc => ?_) (fun a b => ?_) xs
  · exact TransCmp.isLE_trans hab hbc
  · have hswap : compare (key b) (key a) = (compare (key a) (key b)).swap := OrientedCmp.eq_swap
    rw [hswap]
    cases compare (key a) (key b) <;> rfl

omit [TransOrd κ] in
/-- A sorted list without its repetitions is increasing. -/
theorem increasing_dedup [LawfulEqOrd κ] [DecidableEq κ] {xs : List κ}
    (hsorted : xs.Pairwise fun a b => (compare a b).isLE = true) : Increasing id xs.dedup := by
  refine ((hsorted.sublist (List.dedup_sublist xs)).and (List.nodup_dedup xs)).imp ?_
  intro a b ⟨hle, hne⟩
  have hneq : compare a b ≠ .eq := fun heq => hne (LawfulEqCmp.compare_eq_iff_eq.1 heq)
  change compare a b = .lt
  cases hcompare : compare a b with
  | lt => rfl
  | eq => exact absurd hcompare hneq
  | gt => simp [hcompare] at hle

omit [TransOrd κ] in
theorem mem_insertLast_self (a : α) (xs : List α) : a ∈ insertLast key a xs := by
  induction xs with
  | nil => simp [insertLast]
  | cons c cs ih =>
    rw [insertLast]
    split
    · simp
    · simp
    · exact List.mem_cons_of_mem c ih

omit [TransOrd κ] in
/-- An element with another key stays. -/
theorem mem_insertLast_of_ne [LawfulEqOrd κ] {a b : α} {xs : List α} (hb : b ∈ xs)
    (hne : key b ≠ key a) : b ∈ insertLast key a xs := by
  induction xs with
  | nil => simp at hb
  | cons c cs ih =>
    rw [insertLast]
    split
    · exact List.mem_cons_of_mem a hb
    · rename_i heq
      have hkey : key a = key c := LawfulEqCmp.compare_eq_iff_eq.1 heq
      rcases List.mem_cons.1 hb with rfl | hb
      · exact absurd hkey.symm hne
      · exact List.mem_cons_of_mem a hb
    · rcases List.mem_cons.1 hb with rfl | hb
      · exact List.mem_cons_self
      · exact List.mem_cons_of_mem c (ih hb)

omit [TransOrd κ] in
/-- An element whose key is not there joins. -/
theorem mem_insertNew_self [LawfulEqOrd κ] {a : α} {xs : List α} (hnew : ∀ b ∈ xs, key b ≠ key a) :
    a ∈ insertNew key a xs := by
  induction xs with
  | nil => simp [insertNew]
  | cons c cs ih =>
    rw [insertNew]
    split
    · exact List.mem_cons_self
    · rename_i heq
      have hkey : key a = key c := LawfulEqCmp.compare_eq_iff_eq.1 heq
      exact absurd hkey.symm (hnew c List.mem_cons_self)
    · exact List.mem_cons_of_mem c (ih fun b hb => hnew b (List.mem_cons_of_mem c hb))

/-! ## Collections -/

namespace Sorted

theorem nodup_toList (s : Sorted key) : s.toList.Nodup := s.increasing.nodup

/-- Collections with the same elements are equal. -/
theorem ext_mem {s t : Sorted key} (h : ∀ a, a ∈ s ↔ a ∈ t) : s = t :=
  Sorted.ext (s.increasing.ext_mem t.increasing h)

omit [TransOrd κ] in
theorem not_mem_empty (a : α) : a ∉ (∅ : Sorted key) := List.not_mem_nil

/-- The element with a key is the one that is found. -/
theorem find?_eq_some [DecidableEq κ] {s : Sorted key} {k : κ} {a : α} :
    s.find? k = some a ↔ a ∈ s ∧ key a = k := by
  refine ⟨fun h => ⟨mem_of_find? h, key_of_find? h⟩, ?_⟩
  rintro ⟨ha, rfl⟩
  have hsome : (s.find? (key a)).isSome := by
    rw [find?, List.find?_isSome]
    exact ⟨a, ha, by simp⟩
  obtain ⟨b, hb⟩ := Option.isSome_iff_exists.1 hsome
  rw [hb, s.increasing.eq_of_key_eq (mem_of_find? hb) ha (key_of_find? hb)]

/-- A new element stays out if its key is there. -/
theorem mem_insert_iff [LawfulEqOrd κ] {s : Sorted key} {a b : α} :
    b ∈ s.insert a ↔ b ∈ s ∨ b = a ∧ ∀ c ∈ s, key c ≠ key a := by
  constructor
  · intro h
    by_cases hnew : ∀ c ∈ s, key c ≠ key a
    · exact (mem_of_mem_insert h).symm.imp id fun hb => ⟨hb, hnew⟩
    · obtain ⟨c, hc, hkey⟩ : ∃ c ∈ s, key c = key a := by simpa using hnew
      left
      rcases mem_of_mem_insert h with rfl | hb
      · rwa [(s.insert b).increasing.eq_of_key_eq h (mem_insert_of_mem hc) hkey.symm]
      · exact hb
  · rintro (hb | ⟨rfl, hnew⟩)
    · exact mem_insert_of_mem hb
    · exact mem_insertNew_self hnew

/-- A new element is found by its key unless the key was there. -/
theorem find?_insert [LawfulEqOrd κ] [DecidableEq κ] (s : Sorted key) (a : α) (k : κ) :
    (s.insert a).find? k = (s.find? k).or (if key a = k then some a else none) := by
  cases hfind : s.find? k with
  | some b =>
    obtain ⟨hb, hkey⟩ := find?_eq_some.1 hfind
    exact find?_eq_some.2 ⟨mem_insert_of_mem hb, hkey⟩
  | none =>
    have hnew : ∀ b ∈ s, key b ≠ k := by simpa [find?, Sorted.mem_toList] using hfind
    rw [Option.none_or]
    split
    · rename_i hkey
      subst hkey
      exact find?_eq_some.2 ⟨mem_insertNew_self hnew, rfl⟩
    · rename_i hkey
      rw [find?, List.find?_eq_none]
      intro b hb
      rcases mem_of_mem_insert hb with rfl | hb
      · simpa using hkey
      · simpa using hnew b hb

theorem find?_foldl_insert [LawfulEqOrd κ] [DecidableEq κ] (s : Sorted key) (xs : List α) (k : κ) :
    (xs.foldl insert s).find? k = (s.find? k).or (xs.find? fun a => key a = k) := by
  induction xs generalizing s with
  | nil => rw [List.foldl_nil, List.find?_nil, Option.or_none]
  | cons a xs ih =>
    rw [List.foldl_cons, ih, find?_insert, Option.or_assoc, List.find?_cons]
    split <;> simp_all

/-- Of the elements with a key the first one is found. -/
theorem find?_ofList [LawfulEqOrd κ] [DecidableEq κ] (xs : List α) (k : κ) :
    (ofList xs : Sorted key).find? k = xs.find? fun a => key a = k :=
  (find?_foldl_insert empty xs k).trans Option.none_or

/-- A collection made from a list has as many elements as the list has keys. -/
theorem size_ofList [LawfulEqOrd κ] [DecidableEq κ] (xs : List α) :
    (ofList xs : Sorted key).size = (xs.map key).dedup.length := by
  have hkeys : Increasing id ((ofList xs : Sorted key).toList.map key) :=
    List.pairwise_map.2 (ofList xs).increasing
  have hmem : ∀ k, k ∈ (ofList xs : Sorted key).toList.map key ↔ k ∈ xs.map key := by
    intro k
    have hfound : ((ofList xs : Sorted key).find? k).isSome =
        (xs.find? fun a => key a = k).isSome := by rw [find?_ofList]
    rw [find?, Bool.eq_iff_iff, List.find?_isSome, List.find?_isSome] at hfound
    simpa using hfound
  have hperm : ((ofList xs : Sorted key).toList.map key).Perm (xs.map key).dedup := by
    refine (List.perm_ext_iff_of_nodup hkeys.nodup (List.nodup_dedup _)).2 fun k => ?_
    rw [hmem, List.mem_dedup]
  rw [size, ← hperm.length_eq, List.length_map]

theorem mem_foldl_insert_of_nodup [LawfulEqOrd κ] {s : Sorted key} {xs : List α} {a : α}
    (hs : ∀ b ∈ s, ∀ c ∈ xs, key b ≠ key c) (hxs : (xs.map key).Nodup) :
    a ∈ xs.foldl insert s ↔ a ∈ s ∨ a ∈ xs := by
  induction xs generalizing s with
  | nil => simp
  | cons x xs ih =>
    obtain ⟨hx, hrest⟩ := List.nodup_cons.1 hxs
    have hnew : ∀ c ∈ s, key c ≠ key x := fun c hc => hs c hc x List.mem_cons_self
    have hs' : ∀ b ∈ s.insert x, ∀ c ∈ xs, key b ≠ key c := by
      intro b hb c hc
      rcases mem_of_mem_insert hb with rfl | hb
      · exact fun hkey => hx (hkey ▸ List.mem_map_of_mem hc)
      · exact hs b hb c (List.mem_cons_of_mem x hc)
    rw [List.foldl_cons, ih hs' hrest, mem_insert_iff, and_iff_left hnew, List.mem_cons, or_assoc]

/-- Of elements with different keys none is left out. -/
theorem mem_ofList_of_nodup [LawfulEqOrd κ] {xs : List α} {a : α} (hxs : (xs.map key).Nodup) :
    a ∈ (ofList xs : Sorted key) ↔ a ∈ xs := by
  have hempty : ∀ b ∈ (∅ : Sorted key), ∀ c ∈ xs, key b ≠ key c :=
    fun b hb => absurd hb (not_mem_empty b)
  exact (mem_foldl_insert_of_nodup hempty hxs).trans (or_iff_right (not_mem_empty a))

/-- A new entry replaces the one with its key. -/
theorem mem_put [LawfulEqOrd κ] {s : Sorted key} {a b : α} :
    b ∈ s.put a ↔ b = a ∨ b ∈ s ∧ key b ≠ key a := by
  constructor
  · intro h
    by_cases hk : key b = key a
    · left
      exact (s.put a).increasing.eq_of_key_eq h (mem_insertLast_self a s.toList) hk
    · exact (mem_of_mem_insertLast h).imp id fun hb => ⟨hb, hk⟩
  · rintro (rfl | ⟨hb, hne⟩)
    · exact mem_insertLast_self b s.toList
    · exact mem_insertLast_of_ne hb hne

end Sorted

namespace SortedSet

variable {α : Type} [Ord α] [TransOrd α] [LawfulEqOrd α]

theorem mem_foldl_insert {s : SortedSet α} {xs : List α} {a : α} :
    a ∈ xs.foldl Sorted.insert s ↔ a ∈ s ∨ a ∈ xs := by
  induction xs generalizing s with
  | nil => simp
  | cons b bs ih =>
    rw [List.foldl_cons, ih, mem_insert, List.mem_cons, or_comm (a := a = b), or_assoc]

@[simp] theorem mem_ofList {xs : List α} {a : α} :
    a ∈ (Sorted.ofList xs : SortedSet α) ↔ a ∈ xs := by
  rw [Sorted.ofList, mem_foldl_insert]
  exact or_iff_right (Sorted.not_mem_empty a)

omit [LawfulEqOrd α] in
/-- A set has as many elements as any list of its elements without repetition. -/
theorem size_eq_length {s : SortedSet α} {xs : List α} (hnodup : xs.Nodup)
    (h : ∀ a, a ∈ s ↔ a ∈ xs) : s.size = xs.length :=
  ((List.perm_ext_iff_of_nodup s.nodup_toList hnodup).2 h).length_eq

end SortedSet

namespace SortedMap

section

variable {κ ν : Type} [Ord κ] {m : SortedMap κ ν} {k : κ} {v : ν}

theorem mem_keys : k ∈ m.keys ↔ ∃ v, (k, v) ∈ m := by
  simp [keys, Sorted.mem_toList]

theorem length_keys (m : SortedMap κ ν) : m.keys.length = m.size := List.length_map _

theorem increasing_keys (m : SortedMap κ ν) : Increasing id m.keys :=
  List.Pairwise.map _ (fun _ _ h => h) m.increasing

theorem mem_withValues {s : SortedSet κ} {value : κ → ν} :
    (k, v) ∈ s.withValues value ↔ k ∈ s ∧ v = value k := by
  change (k, v) ∈ s.toList.map (fun a => (a, value a)) ↔ _
  rw [List.mem_map]
  constructor
  · rintro ⟨a, ha, heq⟩
    obtain ⟨rfl, rfl⟩ := Prod.mk.inj heq
    exact ⟨ha, rfl⟩
  · rintro ⟨hk, rfl⟩
    exact ⟨k, hk, rfl⟩

end

variable {κ ν : Type} [Ord κ] [TransOrd κ] [DecidableEq κ]

theorem get?_eq_some {m : SortedMap κ ν} {k : κ} {v : ν} : m.get? k = some v ↔ (k, v) ∈ m := by
  rw [get?, Option.map_eq_some_iff]
  constructor
  · rintro ⟨⟨k', v'⟩, hfind, rfl⟩
    obtain ⟨hmem, rfl⟩ := Sorted.find?_eq_some.1 hfind
    exact hmem
  · intro h
    exact ⟨(k, v), Sorted.find?_eq_some.2 ⟨h, rfl⟩, rfl⟩

theorem get?_put_self [LawfulEqOrd κ] (m : SortedMap κ ν) (k : κ) (v : ν) :
    SortedMap.get? (m.put (k, v)) k = some v :=
  get?_eq_some.2 (Sorted.mem_put.2 (.inl rfl))

theorem get?_put_of_ne [LawfulEqOrd κ] (m : SortedMap κ ν) {k k' : κ} (v : ν) (hne : k' ≠ k) :
    SortedMap.get? (m.put (k, v)) k' = m.get? k' := by
  refine Option.ext fun w => ?_
  rw [get?_eq_some, get?_eq_some, Sorted.mem_put]
  constructor
  · rintro (heq | ⟨hmem, _⟩)
    · exact absurd (Prod.mk.inj heq).1 hne
    · exact hmem
  · exact fun hmem => .inr ⟨hmem, hne⟩

end SortedMap

end DispatchGraph
