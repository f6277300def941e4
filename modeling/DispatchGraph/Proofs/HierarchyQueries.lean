import DispatchGraph.Proofs.Termination

/-!
# What the queries of a hierarchy list

The queries of a program's hierarchy follow links downwards from a class until they find no new
one. A link leads from a declared class, so only declared classes are found, and the class itself is
left out of what was found even if its own links lead back to it (`mem_below`).

The search behind a query visits the class and everything below it, each once, whatever the links
are (`visited_linkSpace_perm`). So it takes one turn more than the query lists classes, and ends
within a bound exactly when the bound allows these (`belowWithin_eq`). Hence both queries end on
every program, within one turn more than it declares classes, and list what the links lead to
(`hierarchy_exact`).
-/

namespace DispatchGraph

open Relation

namespace Program

variable {p : Program} {link : ClassDecl → ClassName → Bool} {name x : ClassName} {turns : Nat}

/-! ## How long a query takes -/

/-- The classes below a name, by a search of at most so many turns; nothing if it does not end by
then. -/
def belowWithin (p : Program) (link : ClassDecl → ClassName → Bool) (turns : Nat)
    (name : ClassName) : Option (List ClassName) :=
  ((p.linkSpace link).exploreWithin turns none (Frontier.empty.discoverAll [name])).map fun found =>
    let reached : SortedSet ClassName := .ofList found.discovered
    reached.toList.filter (· ≠ name)

/-- The search visits the class itself and the classes below it, each once. -/
theorem visited_linkSpace_perm (p : Program) (link : ClassDecl → ClassName → Bool)
    (name : ClassName) :
    ((p.linkSpace link).explore none [name]).visited.Perm (name :: p.below link name) := by
  have hnodup : (name :: p.below link name).Nodup :=
    List.nodup_cons.2 ⟨fun hmem => (mem_below.1 hmem).1 rfl, (increasing_below p link name).nodup⟩
  refine (List.perm_ext_iff_of_nodup Space.nodup_visited_explore hnodup).2 fun x => ?_
  rw [mem_visited_linkSpace, List.mem_cons, mem_below, reflTransGen_iff_eq_or_transGen]
  by_cases hx : x = name
  · simp [hx]
  · simp [hx, Ne.symm hx]

theorem turns_linkSpace (p : Program) (link : ClassDecl → ClassName → Bool) (name : ClassName) :
    ((p.linkSpace link).explore none [name]).turns = (p.below link name).length + 1 := by
  have hpending : ((p.linkSpace link).explore none [name]).pending = [] :=
    Space.pending_exploreFrom_none
  have hvisits : ((p.linkSpace link).explore none [name]).visits.length =
      (p.below link name).length + 1 := by
    have hlength := (visited_linkSpace_perm p link name).length_eq
    rwa [Outcome.visited, List.length_map, List.length_cons] at hlength
  rw [Outcome.turns, hpending, hvisits]
  rfl

/-- **A query ends within a bound if and only if the bound exceeds the number of classes that it
lists.** -/
theorem belowWithin_eq (p : Program) (link : ClassDecl → ClassName → Bool) (turns : Nat)
    (name : ClassName) :
    p.belowWithin link turns name =
      if (p.below link name).length < turns then some (p.below link name) else none := by
  have hturns := turns_linkSpace p link name
  rw [Space.explore] at hturns
  rw [belowWithin, Space.exploreWithin_eq, hturns]
  simp only [Nat.add_one_le_iff]
  split
  · rfl
  · rfl

theorem length_below_le (p : Program) (link : ClassDecl → ClassName → Bool) (name : ClassName) :
    (p.below link name).length ≤ p.classCount := by
  have hsubset : p.below link name ⊆ p.classNames := by
    intro x hx
    obtain ⟨c, hc⟩ := exists_class_of_mem_below hx
    exact mem_classNames_of_class? hc
  calc (p.below link name).length
      ≤ p.classNames.length :=
        (List.subperm_of_subset (increasing_below p link name).nodup hsubset).length_le
    _ = p.classCount := length_classNames p

/-! ## What a query lists -/

/-- The names are those of the declared classes, other than the given one, from which one or more
links lead to it, in increasing order and each once. -/
structure ListsBelow (p : Program) (links : ClassName → ClassName → Prop) (name : ClassName)
    (names : List ClassName) : Prop where
  increasing : Increasing id names
  mem_iff : ∀ x, x ∈ names ↔ (∃ c, p.class? x = some c) ∧ x ≠ name ∧ TransGen links x name

theorem listsBelow_below (p : Program) (link : ClassDecl → ClassName → Bool) (name : ClassName) :
    p.ListsBelow (p.LinksTo link) name (p.below link name) where
  increasing := increasing_below p link name
  mem_iff _ := ⟨fun hx => ⟨exists_class_of_mem_below hx, mem_below.1 hx⟩, fun h => mem_below.2 h.2⟩

/-- **The queries of a program's own hierarchy are exact.** For every name, declared or not, they
list the classes below it by superclass links, and by superclass and interface links at every step.
Their searches end on every graph of links, within one turn more than there are classes. -/
theorem hierarchy_exact (p : Program) (name : ClassName) :
    p.ListsBelow p.DirectSubclass name (p.hierarchy.subclassesOf name) ∧
    p.ListsBelow p.DirectSubtype name (p.hierarchy.implementersOf name) ∧
    ∀ turns, p.classCount < turns →
      p.belowWithin extendsLink turns name = some (p.hierarchy.subclassesOf name) ∧
      p.belowWithin subtypeLink turns name = some (p.hierarchy.implementersOf name) := by
  have hends : ∀ link turns, p.classCount < turns →
      p.belowWithin link turns name = some (p.below link name) := by
    intro link turns hturns
    rw [belowWithin_eq, if_pos ((length_below_le p link name).trans_lt hturns)]
  rw [← linksTo_extendsLink, ← linksTo_subtypeLink]
  exact ⟨listsBelow_below p extendsLink name, listsBelow_below p subtypeLink name,
    fun turns hturns => ⟨hends extendsLink turns hturns, hends subtypeLink turns hturns⟩⟩

end Program

end DispatchGraph
