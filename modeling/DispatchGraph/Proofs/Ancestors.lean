import DispatchGraph.Proofs.Resolution
import Mathlib.Data.Finset.Card
import Mathlib.Order.Interval.Set.Defs

/-!
# The way up from a class

Superclass links lead from a class to its ancestors: `Program.ancestor?` is the one that `n` links
lead to. The way may end at a class without superclass, leave the program, or run into a cycle and
then never end. The walk for the target of a call follows it to the first class that declares the
method, or to the place where it is clear that there is none. `Program.EndsAfter` says where that is
in terms of the way alone: what the walk finds `n` links up, and that it finds nothing before.

One link determines the next, so a class that is met twice makes the way periodic
(`ancestor?_add_eq`). Hence a class that is met for the first time has no repetition before it
(`injOn_of_first`), and the walk, which stops at a repetition, is not stopped on its way to a
declaration, to an undeclared class or to the top (`Reaches.injOn`). There it gives the outcome
that the place stands for (`target_of_endsAfter`). Since the classes that it passes are declared and
distinct, there is such a place, no more links up than there are classes (`exists_endsAfter`). So
the walk finds the target of a call exactly, and if there is none, the reason (`target_exact`).
-/

namespace DispatchGraph

/-- The diagnostic says that a call has no target. -/
def Diagnostic.isUnresolved : Diagnostic → Bool
  | unresolved .. => true
  | _ => false

namespace Program

variable {p : Program} {call target : Signature} {name x y : ClassName} {n : Nat}

/-! ## Ancestors -/

/-- The superclass that a class is declared with. -/
def superclass? (p : Program) (name : ClassName) : Option ClassName :=
  (p.class? name).bind ClassDecl.superclass

/-- The class that `n` superclass links lead to from a class. It need not be declared. -/
def ancestor? (p : Program) (name : ClassName) : Nat → Option ClassName
  | 0 => some name
  | n + 1 => (p.ancestor? name n).bind p.superclass?

theorem superclass?_eq_some :
    p.superclass? x = some y ↔ ∃ c, p.class? x = some c ∧ c.superclass = some y :=
  Option.bind_eq_some_iff

theorem ancestor?_succ_eq_some :
    p.ancestor? name (n + 1) = some y ↔
      ∃ x, p.ancestor? name n = some x ∧ p.superclass? x = some y :=
  Option.bind_eq_some_iff

/-- From places with the same class the way goes on alike. -/
theorem ancestor?_add_eq {i j : Nat} (h : p.ancestor? name i = p.ancestor? name j) (k : Nat) :
    p.ancestor? name (i + k) = p.ancestor? name (j + k) := by
  induction k with
  | zero => exact h
  | succ k ih => rw [← Nat.add_assoc, ← Nat.add_assoc, ancestor?, ancestor?, ih]

/-- A class below another one on the way is declared, with a superclass. -/
theorem exists_superclass_of_lt {i : Nat} (hn : p.ancestor? name n = some x) (hi : i < n) :
    ∃ y z, p.ancestor? name i = some y ∧ p.superclass? y = some z := by
  induction n generalizing x with
  | zero => omega
  | succ n ih =>
    obtain ⟨w, hw, hsuper⟩ := ancestor?_succ_eq_some.1 hn
    rcases Nat.lt_succ_iff_lt_or_eq.1 hi with hlt | rfl
    · exact ih hw hlt
    · exact ⟨w, x, hw, hsuper⟩

/-- On the way to a class that was not met before no class is met twice. -/
theorem injOn_of_first (hx : p.ancestor? name n = some x)
    (hfirst : ∀ i < n, p.ancestor? name i ≠ some x) :
    Set.InjOn (p.ancestor? name) (Set.Iic n) := by
  have hne : ∀ i j, i < j → j ≤ n → p.ancestor? name i ≠ p.ancestor? name j := by
    intro i j hij hjn heq
    -- what follows the second meeting follows the first one, so `x` was met before
    obtain ⟨k, rfl⟩ := Nat.exists_eq_add_of_le hjn
    exact hfirst (i + k) (by omega) ((ancestor?_add_eq heq k).trans hx)
  intro i hi j hj heq
  rcases Nat.lt_trichotomy i j with hlt | rfl | hlt
  · exact absurd heq (hne i j hlt hj)
  · rfl
  · exact absurd heq.symm (hne j i hlt hi)

theorem not_met_before (hinj : Set.InjOn (p.ancestor? name) (Set.Iic (n + 1)))
    (hx : p.ancestor? name (n + 1) = some x) : ¬ ∃ i ≤ n, p.ancestor? name i = some x := by
  rintro ⟨i, hi, hix⟩
  have heq : i = n + 1 :=
    hinj (Set.mem_Iic.2 (by omega)) (Set.mem_Iic.2 le_rfl) (hix.trans hx.symm)
  omega

/-- Distinct classes on the way below some class are no more than the program declares. -/
theorem le_classCount (hx : p.ancestor? name n = some x)
    (hinj : Set.InjOn (p.ancestor? name) (Set.Iio n)) : n ≤ p.classCount := by
  have hmaps : ∀ i ∈ Finset.range n, p.ancestor? name i ∈ (p.classNames.map some).toFinset := by
    intro i hi
    obtain ⟨y, z, hy, hsuper⟩ := exists_superclass_of_lt hx (Finset.mem_range.1 hi)
    obtain ⟨c, hc, -⟩ := superclass?_eq_some.1 hsuper
    rw [hy, List.mem_toFinset]
    exact List.mem_map_of_mem (mem_classNames_of_class? hc)
  have hinj' : Set.InjOn (p.ancestor? name) (Finset.range n : Finset Nat) :=
    fun i hi j hj => hinj (Finset.mem_range.1 hi) (Finset.mem_range.1 hj)
  calc n = (Finset.range n).card := (Finset.card_range n).symm
    _ ≤ (p.classNames.map some).toFinset.card := Finset.card_le_card_of_injOn _ hmaps hinj'
    _ ≤ (p.classNames.map some).length := List.toFinset_card_le _
    _ = p.classCount := by rw [List.length_map, length_classNames]

/-! ## Where the way ends for a call -/

/-- From the class of a call `n` links lead to `x`, and no class before `x` declares the method. -/
structure Reaches (p : Program) (call : Signature) (n : Nat) (x : ClassName) : Prop where
  ancestor_eq : p.ancestor? call.owner n = some x
  passed : ∀ i < n, ∀ y, p.ancestor? call.owner i = some y → p.declares ⟨y, call.sub⟩ = false

/-- After `n` links it is clear what a call binds to, or why it binds to nothing. -/
def EndsAfter (p : Program) (call : Signature) (n : Nat) : Except Unresolved Signature → Prop
  -- the class there is the first one that declares the method
  | .ok target => target.sub = call.sub ∧ p.Reaches call n target.owner ∧ p.declares target = true
  | .error .classMissing => n = 0 ∧ p.class? call.owner = none
  -- the class there is the first one that is not declared
  | .error (.ancestorMissing x) => 0 < n ∧ p.Reaches call n x ∧ p.class? x = none
  -- the class there is the first one that was met before
  | .error (.cycle x) => p.Reaches call n x ∧ (∃ i < n, p.ancestor? call.owner i = some x) ∧
      Set.InjOn (p.ancestor? call.owner) (Set.Iio n)
  -- the class there has no superclass
  | .error .noImplementation => ∃ x c, p.Reaches call n x ∧ p.class? x = some c ∧
      c.declares call.sub = false ∧ c.superclass = none

theorem Reaches.zero (p : Program) (call : Signature) : p.Reaches call 0 call.owner :=
  ⟨rfl, by simp⟩

/-- One link up from a class that does not declare the method. -/
theorem Reaches.succ {c : ClassDecl} (h : p.Reaches call n x) (hc : p.class? x = some c)
    (hdecl : c.declares call.sub = false) (hsuper : c.superclass = some y) :
    p.Reaches call (n + 1) y where
  ancestor_eq :=
    ancestor?_succ_eq_some.2 ⟨x, h.ancestor_eq, superclass?_eq_some.2 ⟨c, hc, hsuper⟩⟩
  passed i hi z hz := by
    rcases Nat.lt_succ_iff_lt_or_eq.1 hi with hlt | rfl
    · exact h.passed i hlt z hz
    · obtain rfl : x = z := Option.some.inj (h.ancestor_eq.symm.trans hz)
      rw [declares_of_class? hc, hdecl]

/-- Conversely the class before one that is reached is passed. -/
theorem Reaches.exists_before (h : p.Reaches call (n + 1) y) :
    ∃ x c, p.Reaches call n x ∧ p.class? x = some c ∧ c.declares call.sub = false ∧
      c.superclass = some y := by
  obtain ⟨x, hx, hsuper⟩ := ancestor?_succ_eq_some.1 h.ancestor_eq
  obtain ⟨c, hc, hsuper⟩ := superclass?_eq_some.1 hsuper
  have hdecl : p.declares ⟨x, call.sub⟩ = false := h.passed n (Nat.lt_succ_self n) x hx
  rw [declares_of_class? hc] at hdecl
  exact ⟨x, c, ⟨hx, fun i hi => h.passed i (by omega)⟩, hc, hdecl, hsuper⟩

/-- A class that declares the method, or from which no link leads up, is met for the first time. -/
theorem Reaches.injOn (h : p.Reaches call n x)
    (hstop : p.declares ⟨x, call.sub⟩ = true ∨ p.superclass? x = none) :
    Set.InjOn (p.ancestor? call.owner) (Set.Iic n) := by
  refine injOn_of_first h.ancestor_eq fun i hi heq => ?_
  rcases hstop with hdecl | htop
  · simp [h.passed i hi x heq] at hdecl
  · obtain ⟨y, z, hy, hsuper⟩ := exists_superclass_of_lt h.ancestor_eq hi
    obtain rfl : x = y := Option.some.inj (heq.symm.trans hy)
    simp [htop] at hsuper

/-! ## The walk follows the way -/

/-- As long as no class is met twice, the walk comes to every class that the way reaches, and the
names it keeps are those of the classes up to there. -/
theorem target_eq_climb {c : ClassDecl} (hreach : p.Reaches call n x)
    (hinj : Set.InjOn (p.ancestor? call.owner) (Set.Iic n)) (hc : p.class? x = some c) :
    ∃ visited, p.target call = p.climb call visited c ∧
      ∀ y, y ∈ visited ↔ ∃ i ≤ n, p.ancestor? call.owner i = some y := by
  induction n generalizing x c with
  | zero =>
    obtain rfl : call.owner = x := Option.some.inj hreach.ancestor_eq
    refine ⟨[c.name], by simp [target, hc], fun y => ?_⟩
    simp [name_of_class? hc, ancestor?, eq_comm]
  | succ n ih =>
    obtain ⟨w, cw, hw, hcw, hdecl, hsuper⟩ := hreach.exists_before
    obtain ⟨visited, hwalk, hvisited⟩ :=
      ih hw (hinj.mono (Set.Iic_subset_Iic.2 (Nat.le_succ n))) hcw
    have hnew : x ∉ visited := fun hmem =>
      not_met_before hinj hreach.ancestor_eq ((hvisited x).1 hmem)
    refine ⟨x :: visited, hwalk.trans (climb_up hdecl hsuper hnew hc), fun y => ?_⟩
    rw [List.mem_cons, hvisited]
    constructor
    · rintro (rfl | ⟨i, hi, hiy⟩)
      · exact ⟨n + 1, le_rfl, hreach.ancestor_eq⟩
      · exact ⟨i, by omega, hiy⟩
    · rintro ⟨i, hi, hiy⟩
      rcases Nat.le_succ_iff.1 hi with hle | rfl
      · exact .inr ⟨i, hle, hiy⟩
      · exact .inl (Option.some.inj (hiy.symm.trans hreach.ancestor_eq))

/-! ## Where the walk ends -/

/-- **The walk gives the outcome of the place where the way ends**, also if a cycle lies further
up. -/
theorem target_of_endsAfter {outcome : Except Unresolved Signature}
    (h : p.EndsAfter call n outcome) : p.target call = outcome := by
  match outcome with
  | .ok ⟨owner, sub⟩ =>
    obtain ⟨rfl, hreach, howner⟩ := h
    obtain ⟨c, hc, hdecl⟩ := declares_iff.1 howner
    obtain ⟨visited, hwalk, -⟩ := target_eq_climb hreach (hreach.injOn (.inl howner)) hc
    rw [hwalk, climb_of_declares hdecl, name_of_class? hc]
  | .error .classMissing => simp [target, h.2]
  | .error (.ancestorMissing x) =>
    obtain ⟨hpos, hreach, hmissing⟩ := h
    obtain ⟨m, rfl⟩ := Nat.exists_eq_add_one_of_ne_zero hpos.ne'
    obtain ⟨w, c, hw, hc, hdecl, hsuper⟩ := hreach.exists_before
    have hinj := hreach.injOn (.inr (by simp [superclass?, hmissing]))
    obtain ⟨visited, hwalk, hvisited⟩ := target_eq_climb hw (hinj.mono (by simp)) hc
    have hnew : x ∉ visited := fun hmem =>
      not_met_before hinj hreach.ancestor_eq ((hvisited x).1 hmem)
    rw [hwalk, climb_missing hdecl hsuper hnew hmissing]
  | .error (.cycle x) =>
    obtain ⟨hreach, ⟨i, hi, hix⟩, hinj⟩ := h
    obtain ⟨m, rfl⟩ := Nat.exists_eq_add_one_of_ne_zero (Nat.ne_zero_of_lt hi)
    obtain ⟨w, c, hw, hc, hdecl, hsuper⟩ := hreach.exists_before
    obtain ⟨visited, hwalk, hvisited⟩ :=
      target_eq_climb hw (hinj.mono fun j hj => Nat.lt_succ_of_le hj) hc
    have hold : x ∈ visited := (hvisited x).2 ⟨i, Nat.le_of_lt_succ hi, hix⟩
    rw [hwalk, climb_cycle hdecl hsuper hold]
  | .error .noImplementation =>
    obtain ⟨x, c, hreach, hc, hdecl, htop⟩ := h
    have hinj := hreach.injOn (.inr (by simp [superclass?, hc, htop]))
    obtain ⟨visited, hwalk, -⟩ := target_eq_climb hreach hinj hc
    rw [hwalk, climb_top hdecl htop]

/-- One step of the way: it ends at a class that is reached, or goes on to one that is reached by
one link more, and no class is met twice before. -/
theorem endsAfter_or_reaches (hreach : p.Reaches call n x)
    (hinj : Set.InjOn (p.ancestor? call.owner) (Set.Iio n)) :
    (∃ outcome, p.EndsAfter call n outcome) ∨
      ∃ y, p.Reaches call (n + 1) y ∧ Set.InjOn (p.ancestor? call.owner) (Set.Iio (n + 1)) := by
  by_cases hmet : ∃ i < n, p.ancestor? call.owner i = some x
  · exact .inl ⟨.error (.cycle x), hreach, hmet, hinj⟩
  · cases hc : p.class? x with
    | none =>
      rcases Nat.eq_zero_or_pos n with rfl | hpos
      · obtain rfl : call.owner = x := Option.some.inj hreach.ancestor_eq
        exact .inl ⟨.error .classMissing, rfl, hc⟩
      · exact .inl ⟨.error (.ancestorMissing x), hpos, hreach, hc⟩
    | some c =>
      cases hdecl : c.declares call.sub with
      | true =>
        exact .inl ⟨.ok ⟨x, call.sub⟩, rfl, hreach, declares_iff.2 ⟨c, hc, hdecl⟩⟩
      | false =>
        cases hsuper : c.superclass with
        | none => exact .inl ⟨.error .noImplementation, x, c, hreach, hc, hdecl, hsuper⟩
        | some y =>
          have hinj' : Set.InjOn (p.ancestor? call.owner) (Set.Iic n) :=
            injOn_of_first hreach.ancestor_eq fun i hi heq => hmet ⟨i, hi, heq⟩
          exact .inr ⟨y, hreach.succ hc hdecl hsuper,
            hinj'.mono fun j hj => Nat.le_of_lt_succ hj⟩

/-- The way ends for every call, no more links up than there are classes. -/
theorem exists_endsAfter (p : Program) (call : Signature) :
    ∃ n ≤ p.classCount, ∃ outcome, p.EndsAfter call n outcome := by
  by_contra hnone
  push Not at hnone
  have hreaches : ∀ n ≤ p.classCount + 1,
      ∃ x, p.Reaches call n x ∧ Set.InjOn (p.ancestor? call.owner) (Set.Iio n) := by
    intro n hn
    induction n with
    | zero => exact ⟨call.owner, .zero p call, by simp [Set.InjOn]⟩
    | succ n ih =>
      obtain ⟨x, hreach, hinj⟩ := ih (by omega)
      rcases endsAfter_or_reaches hreach hinj with ⟨outcome, hends⟩ | hnext
      · exact absurd hends (hnone n (by omega) outcome)
      · exact hnext
  -- one class more than there are would be declared
  obtain ⟨x, hreach, hinj⟩ := hreaches (p.classCount + 1) le_rfl
  have hle : p.classCount + 1 ≤ p.classCount := le_classCount hreach.ancestor_eq hinj
  omega

/-! ## What is reported -/

/-- A call that binds is not reported to be without a target, whatever the hierarchy answers. -/
theorem filter_unresolved_of_target (htarget : p.target call = .ok target) (h : Hierarchy) :
    (p.resolve h call).diagnostics.filter Diagnostic.isUnresolved = [] := by
  rw [List.filter_eq_nil_iff]
  intro d hd
  simp only [resolve, htarget] at hd
  split at hd
  · obtain ⟨name, -, rfl⟩ := List.mem_map.1 hd
    simp [Diagnostic.isUnresolved]
  · rw [List.mem_singleton.1 hd]
    simp [Diagnostic.isUnresolved]

/-- **The target of a call is exact on every superclass graph.** The walk gives an outcome if and
only if the way up from the class of the call ends with it, and the way ends for every call, no more
links up than there are classes. A call that binds is not reported to be without a target, and its
target binds to itself. A call that does not bind has no candidates, and the one thing reported is
the reason. -/
theorem target_exact (p : Program) (call : Signature) :
    (∀ outcome, p.target call = outcome ↔ ∃ n, p.EndsAfter call n outcome) ∧
    (∃ n ≤ p.classCount, p.EndsAfter call n (p.target call)) ∧
    (∀ target, p.target call = .ok target → p.target target = .ok target ∧
      ∀ h, (p.resolve h call).diagnostics.filter Diagnostic.isUnresolved = []) ∧
    ∀ cause, p.target call = .error cause →
      ∀ h, p.resolve h call = ⟨[], [.unresolved call cause]⟩ := by
  obtain ⟨n, hn, outcome, hends⟩ := exists_endsAfter p call
  have htarget : p.target call = outcome := target_of_endsAfter hends
  refine ⟨fun outcome' => ⟨?_, fun ⟨_, hends'⟩ => target_of_endsAfter hends'⟩,
    ⟨n, hn, htarget ▸ hends⟩, fun target hok => ?_, fun cause herror h => resolve_of_error herror⟩
  · rintro rfl
    exact ⟨n, htarget ▸ hends⟩
  · exact ⟨target_of_target hok, filter_unresolved_of_target hok⟩

end Program

end DispatchGraph
