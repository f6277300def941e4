/-!
# Collections in strictly increasing order of a key

Everything that is reported in order is kept in order. A `Sorted key` is a list whose elements have
strictly increasing keys, so no key occurs twice and two collections with the same elements are
equal. Sets (`SortedSet`) take the element itself as its key, maps (`SortedMap`) the first component
of a pair.

* `insertNew` keeps the element that is already there, `insertLast` replaces it.
* `increasing_insertNew` and `increasing_insertLast`: both keep the order.
* `mem_of_mem_insertNew` and `mem_insertNew_of_mem`: what an insertion holds.
-/

namespace DispatchGraph

open Std

variable {α κ : Type} [Ord κ]

/-- The keys are strictly increasing. -/
def Increasing (key : α → κ) (xs : List α) : Prop :=
  xs.Pairwise fun a b => compare (key a) (key b) = .lt

/-- Insert `a` in its place, unless an element with its key is there. -/
def insertNew (key : α → κ) (a : α) : List α → List α
  | [] => [a]
  | b :: bs =>
    match compare (key a) (key b) with
    | .lt => a :: b :: bs
    | .eq => b :: bs
    | .gt => b :: insertNew key a bs

/-- Insert `a` in its place, instead of the element with its key if there is one. -/
def insertLast (key : α → κ) (a : α) : List α → List α
  | [] => [a]
  | b :: bs =>
    match compare (key a) (key b) with
    | .lt => a :: b :: bs
    | .eq => a :: bs
    | .gt => b :: insertLast key a bs

/-! ## Insertion keeps the order -/

theorem mem_of_mem_insertNew {key : α → κ} {a b : α} {xs : List α} (h : b ∈ insertNew key a xs) :
    b = a ∨ b ∈ xs := by
  induction xs with
  | nil => simpa [insertNew] using h
  | cons c cs ih =>
    rw [insertNew] at h
    split at h
    · simpa using h
    · exact .inr h
    · rcases List.mem_cons.1 h with rfl | h
      · simp
      · exact (ih h).imp id (List.mem_cons_of_mem c)

theorem mem_of_mem_insertLast {key : α → κ} {a b : α} {xs : List α}
    (h : b ∈ insertLast key a xs) : b = a ∨ b ∈ xs := by
  induction xs with
  | nil => simpa [insertLast] using h
  | cons c cs ih =>
    rw [insertLast] at h
    split at h
    · simpa using h
    · exact (List.mem_cons.1 h).imp id (List.mem_cons_of_mem c)
    · rcases List.mem_cons.1 h with rfl | h
      · simp
      · exact (ih h).imp id (List.mem_cons_of_mem c)

theorem mem_insertNew_of_mem {key : α → κ} {a b : α} {xs : List α} (h : b ∈ xs) :
    b ∈ insertNew key a xs := by
  induction xs with
  | nil => simp at h
  | cons c cs ih =>
    rw [insertNew]
    split
    · exact List.mem_cons_of_mem a h
    · exact h
    · rcases List.mem_cons.1 h with rfl | h
      · simp
      · exact List.mem_cons_of_mem c (ih h)

variable [TransOrd κ]

theorem increasing_insertNew {key : α → κ} {xs : List α} (a : α) (h : Increasing key xs) :
    Increasing key (insertNew key a xs) := by
  induction xs with
  | nil => exact List.pairwise_singleton _ a
  | cons b bs ih =>
    obtain ⟨hb, hbs⟩ := List.pairwise_cons.1 h
    rw [insertNew]
    split
    · rename_i hlt
      refine List.pairwise_cons.2 ⟨fun c hc => ?_, h⟩
      rcases List.mem_cons.1 hc with rfl | hc
      · exact hlt
      · exact TransCmp.lt_trans hlt (hb c hc)
    · exact h
    · rename_i hgt
      refine List.pairwise_cons.2 ⟨fun c hc => ?_, ih hbs⟩
      rcases mem_of_mem_insertNew hc with rfl | hc
      · exact OrientedCmp.gt_iff_lt.1 hgt
      · exact hb c hc

theorem increasing_insertLast {key : α → κ} {xs : List α} (a : α) (h : Increasing key xs) :
    Increasing key (insertLast key a xs) := by
  induction xs with
  | nil => exact List.pairwise_singleton _ a
  | cons b bs ih =>
    obtain ⟨hb, hbs⟩ := List.pairwise_cons.1 h
    rw [insertLast]
    split
    · rename_i hlt
      refine List.pairwise_cons.2 ⟨fun c hc => ?_, h⟩
      rcases List.mem_cons.1 hc with rfl | hc
      · exact hlt
      · exact TransCmp.lt_trans hlt (hb c hc)
    · rename_i heq
      exact List.pairwise_cons.2 ⟨fun c hc => TransCmp.lt_of_eq_of_lt heq (hb c hc), hbs⟩
    · rename_i hgt
      refine List.pairwise_cons.2 ⟨fun c hc => ?_, ih hbs⟩
      rcases mem_of_mem_insertLast hc with rfl | hc
      · exact OrientedCmp.gt_iff_lt.1 hgt
      · exact hb c hc

/-! ## The collections -/

/-- A finite collection, listed in strictly increasing order of `key`. -/
@[ext] structure Sorted (key : α → κ) where
  /-- The elements in order. -/
  toList : List α
  /-- No key stands before a smaller or an equal one. -/
  increasing : Increasing key toList

/-- A finite set, listed in increasing order. -/
abbrev SortedSet (α : Type) [Ord α] := Sorted (id : α → α)

/-- A finite map, listed in increasing order of its keys. -/
abbrev SortedMap (κ ν : Type) [Ord κ] := Sorted (Prod.fst : κ × ν → κ)

namespace Sorted

variable {key : α → κ}

instance : Membership α (Sorted key) := ⟨fun s a => a ∈ s.toList⟩

instance [DecidableEq α] (s : Sorted key) (a : α) : Decidable (a ∈ s) :=
  inferInstanceAs (Decidable (a ∈ s.toList))

instance [DecidableEq α] : DecidableEq (Sorted key) :=
  fun _ _ => decidable_of_iff _ Sorted.ext_iff.symm

/-- The collection without elements. -/
def empty : Sorted key := ⟨[], List.Pairwise.nil⟩

instance : EmptyCollection (Sorted key) := ⟨empty⟩

/-- The number of elements. -/
def size (s : Sorted key) : Nat := s.toList.length

/-- The element with a given key. -/
def find? [DecidableEq κ] (s : Sorted key) (k : κ) : Option α :=
  s.toList.find? fun a => key a = k

/-- Add an element; one with its key that is there stays. -/
def insert (s : Sorted key) (a : α) : Sorted key :=
  ⟨insertNew key a s.toList, increasing_insertNew a s.increasing⟩

/-- Add an element; one with its key that is there goes. -/
def put (s : Sorted key) (a : α) : Sorted key :=
  ⟨insertLast key a s.toList, increasing_insertLast a s.increasing⟩

/-- The collection of the given elements, the first of each key. -/
def ofList (xs : List α) : Sorted key := xs.foldl insert empty

omit [TransOrd κ] in
theorem mem_toList {s : Sorted key} {a : α} : a ∈ s.toList ↔ a ∈ s := Iff.rfl

omit [TransOrd κ] in
theorem key_of_find? [DecidableEq κ] {s : Sorted key} {k : κ} {a : α} (h : s.find? k = some a) :
    key a = k := by
  rw [find?] at h
  simpa using List.find?_some h

omit [TransOrd κ] in
theorem mem_of_find? [DecidableEq κ] {s : Sorted key} {k : κ} {a : α} (h : s.find? k = some a) :
    a ∈ s :=
  List.mem_of_find?_eq_some h

theorem mem_of_mem_insert {s : Sorted key} {a b : α} (h : b ∈ s.insert a) : b = a ∨ b ∈ s :=
  mem_of_mem_insertNew h

theorem mem_insert_of_mem {s : Sorted key} {a b : α} (h : b ∈ s) : b ∈ s.insert a :=
  mem_insertNew_of_mem h

end Sorted

/-! ## Sets and maps -/

namespace SortedSet

variable {α : Type} [Ord α] [TransOrd α] [LawfulEqOrd α]

theorem mem_insert_self (s : SortedSet α) (a : α) : a ∈ s.insert a := by
  obtain ⟨xs, hxs⟩ := s
  change a ∈ insertNew id a xs
  clear hxs
  induction xs with
  | nil => simp [insertNew]
  | cons b bs ih =>
    rw [insertNew]
    split
    · simp
    · rename_i h
      have : a = b := LawfulEqCmp.compare_eq_iff_eq.1 h
      simp [this]
    · exact List.mem_cons_of_mem b ih

theorem mem_insert {s : SortedSet α} {a b : α} : b ∈ s.insert a ↔ b = a ∨ b ∈ s :=
  ⟨Sorted.mem_of_mem_insert, fun h => h.elim (fun h => h ▸ mem_insert_self s a)
    Sorted.mem_insert_of_mem⟩

omit [LawfulEqOrd α] in
theorem mem_of_mem_foldl_insert {s : SortedSet α} {xs : List α} {a : α}
    (h : a ∈ xs.foldl Sorted.insert s) : a ∈ s ∨ a ∈ xs := by
  induction xs generalizing s with
  | nil => exact .inl h
  | cons b bs ih =>
    rcases ih h with h | h
    · rcases Sorted.mem_of_mem_insert h with rfl | h
      · exact .inr List.mem_cons_self
      · exact .inl h
    · exact .inr (List.mem_cons_of_mem b h)

omit [LawfulEqOrd α] in
theorem mem_of_mem_ofList {xs : List α} {a : α} (h : a ∈ (Sorted.ofList xs : SortedSet α)) :
    a ∈ xs :=
  (mem_of_mem_foldl_insert h).elim (fun h => absurd h List.not_mem_nil) id

omit [TransOrd α] [LawfulEqOrd α] in
/-- The map that gives each element of the set its value. -/
def withValues {ν : Type} (s : SortedSet α) (value : α → ν) : SortedMap α ν :=
  ⟨s.toList.map fun a => (a, value a), List.Pairwise.map _ (fun _ _ h => h) s.increasing⟩

end SortedSet

namespace SortedMap

variable {κ ν : Type} [Ord κ]

/-- The value of a key. -/
def get? [DecidableEq κ] (m : SortedMap κ ν) (k : κ) : Option ν := (m.find? k).map Prod.snd

/-- The keys in increasing order. -/
def keys (m : SortedMap κ ν) : List κ := m.toList.map Prod.fst

@[simp] theorem keys_withValues (s : SortedSet κ) (value : κ → ν) :
    (s.withValues value).keys = s.toList := by
  simp [keys, SortedSet.withValues, Function.comp_def]

end SortedMap

end DispatchGraph
