import DispatchGraph.Proofs.Accounting

/-!
# Resolution on the program's own hierarchy

A call that binds to a target may run the target, and the overrides of it: the methods of the same
sub-signature that other classes below the target's class declare themselves (`Program.Overrides`).
Which classes are below depends on what the target's class is (`Program.SubtypeOf`). On the
program's own hierarchy the candidates of a call are the target and after it the overrides, in order
of their classes (`Program.resolve_of_target`), and nothing is reported: the hierarchy knows the
class of every target and lists declared classes only. A class is not listed below itself even if
its links are cyclic, so the target does not come a second time.

A target binds to itself (`Program.target_of_target`), so that a call may run what a call to its
target may run (`Program.resolve_exact`).
-/

namespace DispatchGraph

open Relation

namespace Program

variable {p : Program} {call target s : Signature} {x y : ClassName}

/-! ## Overrides -/

/-- The class `x` is below `y`: by superclass links if `y` is no interface, by superclass and
interface links if it is one. -/
def SubtypeOf (p : Program) (x y : ClassName) : Prop :=
  if p.hierarchy.isInterface y then TransGen p.DirectSubtype x y else TransGen p.DirectSubclass x y

/-- A class other than that of the target is below it, is no interface, and declares the method
`s` with the sub-signature of the target itself. -/
structure Overrides (p : Program) (target s : Signature) : Prop where
  sub_eq : s.sub = target.sub
  owner_ne : s.owner ≠ target.owner
  implements : p.Implements target.sub s.owner
  subtype : p.SubtypeOf s.owner target.owner

theorem mem_substitutes :
    x ∈ substitutes p.hierarchy target ↔ x ≠ target.owner ∧ p.SubtypeOf x target.owner := by
  unfold substitutes SubtypeOf
  by_cases hinterface : p.hierarchy.isInterface target.owner = true
  · rw [if_pos hinterface, if_pos hinterface]
    exact mem_implementersOf
  · rw [if_neg hinterface, if_neg hinterface]
    exact mem_subclassesOf

theorem increasing_substitutes (p : Program) (target : Signature) :
    Increasing id (substitutes p.hierarchy target) := by
  unfold substitutes
  split
  · exact increasing_below p subtypeLink target.owner
  · exact increasing_below p extendsLink target.owner

/-- The overrides of a method in the order of their classes. -/
def overridesOf (p : Program) (target : Signature) : List Signature :=
  (substitutes p.hierarchy target).filterMap (p.override? target)

theorem owner_of_override? (hs : p.override? target x = some s) : s.owner = x := by
  obtain ⟨rfl, -⟩ := override?_eq_some.1 hs
  rfl

theorem mem_overridesOf : s ∈ p.overridesOf target ↔ p.Overrides target s := by
  unfold overridesOf
  rw [List.mem_filterMap]
  constructor
  · intro ⟨x, hx, hs⟩
    obtain ⟨hne, hbelow⟩ := mem_substitutes.1 hx
    obtain ⟨rfl, himpl⟩ := override?_eq_some.1 hs
    exact ⟨rfl, hne, himpl, hbelow⟩
  · intro h
    have heq : s = ⟨s.owner, target.sub⟩ := by rw [← h.sub_eq]
    exact ⟨s.owner, mem_substitutes.2 ⟨h.owner_ne, h.subtype⟩,
      override?_eq_some.2 ⟨heq, h.implements⟩⟩

theorem increasing_overridesOf (p : Program) (target : Signature) :
    Increasing Signature.owner (p.overridesOf target) := by
  refine List.Pairwise.filterMap _ (fun x y hlt s hs t ht => ?_) (increasing_substitutes p target)
  rw [owner_of_override? hs, owner_of_override? ht]
  exact hlt

theorem nodup_cons_overridesOf (p : Program) (target : Signature) :
    (target :: p.overridesOf target).Nodup := by
  refine List.nodup_cons.2 ⟨fun hmem => ?_, (increasing_overridesOf p target).nodup⟩
  exact (mem_overridesOf.1 hmem).owner_ne rfl

/-! ## Calls that bind -/

theorem target_of_target (htarget : p.target call = .ok target) :
    p.target target = .ok target :=
  target_eq_owner.2 ⟨.refl, declares_of_target htarget⟩

/-- The candidates of a call that binds, in order; nothing is reported about it. -/
theorem resolve_of_target (htarget : p.target call = .ok target) :
    p.resolve p.hierarchy call = ⟨target :: p.overridesOf target, []⟩ := by
  have hdiagnostics := (resolve_of_ok htarget).2
  unfold resolve at hdiagnostics ⊢
  simp only [htarget, contains_of_target htarget, ↓reduceIte] at hdiagnostics ⊢
  rw [hdiagnostics]
  rfl

/-- The candidates are the target and then its overrides in order of their classes, none twice. -/
structure Resolution.ExactFor (r : Resolution) (p : Program) (target : Signature) : Prop where
  head_eq : r.candidates.head? = some target
  increasing_tail : Increasing Signature.owner r.candidates.tail
  mem_tail : ∀ s, s ∈ r.candidates.tail ↔ p.Overrides target s
  nodup : r.candidates.Nodup

theorem exactFor_of_target (htarget : p.target call = .ok target) :
    (p.resolve p.hierarchy call).ExactFor p target := by
  rw [resolve_of_target htarget]
  exact ⟨rfl, increasing_overridesOf p target, fun _ => mem_overridesOf,
    nodup_cons_overridesOf p target⟩

theorem candidates_eq_nil_iff :
    (p.resolve p.hierarchy call).candidates = [] ↔ ∃ cause, p.target call = .error cause := by
  cases htarget : p.target call with
  | error cause => simp [resolve_of_error htarget]
  | ok target => simp [resolve_of_target htarget]

/-- On the program's own hierarchy a call is reported because it does not bind, or not at all. -/
theorem diagnostics_resolve_cases (p : Program) (call : Signature) :
    (p.resolve p.hierarchy call).diagnostics = [] ∨
      ∃ cause, (p.resolve p.hierarchy call).diagnostics = [.unresolved call cause] := by
  cases htarget : p.target call with
  | error cause => exact .inr ⟨cause, by rw [resolve_of_error htarget]⟩
  | ok target => exact .inl (by rw [resolve_of_target htarget])

/-- **Resolution is exact.** On the program's own hierarchy a call has no candidate if and only if
it does not bind. Otherwise the first candidate is its target, and the others are the overrides of
the target, each once, in order of their classes; and a call to the target is resolved alike. The
hierarchy is never found to lack the class of a target or to list a class that is not declared. -/
theorem resolve_exact (p : Program) (call : Signature) :
    ((p.resolve p.hierarchy call).candidates = [] ↔ ∃ cause, p.target call = .error cause) ∧
    (∀ target, p.target call = .ok target → target.sub = call.sub ∧
      (p.resolve p.hierarchy call).ExactFor p target ∧
      p.resolve p.hierarchy call = p.resolve p.hierarchy target) ∧
    (∀ target, .outsideHierarchy target ∉ (p.resolve p.hierarchy call).diagnostics) ∧
    ∀ name, .subtypeMissing name ∉ (p.resolve p.hierarchy call).diagnostics := by
  refine ⟨candidates_eq_nil_iff, fun target htarget => ⟨?_, exactFor_of_target htarget, ?_⟩, ?_⟩
  · obtain ⟨owner, rfl, -⟩ := target_eq_ok.1 htarget
    rfl
  · rw [resolve_of_target htarget, resolve_of_target (target_of_target htarget)]
  · rcases diagnostics_resolve_cases p call with hnone | ⟨cause, hone⟩
    · simp [hnone]
    · simp [hone]

end Program

end DispatchGraph
