import DispatchGraph.EntryPoint
import DispatchGraph.Proofs.Construction
import DispatchGraph.Proofs.Dispatch
import DispatchGraph.Proofs.Loading

/-!
# Where the nodes of a call graph come from

A node of a call graph is an entry point or a candidate of a call. A candidate is a method of a
declared class with the sub-signature that the call names (`Program.sub_of_mem_resolve`). So if the
classes of a program and the targets of its calls can stand in signatures, as those of a loaded
program can, the nodes can be read back from their written forms whenever the entry points can
(`Program.Readable.of_mem_nodes`), and main methods always can
(`Program.Readable.of_mem_mainMethods`).
-/

namespace DispatchGraph

namespace Program

variable {p : Program} {h : Hierarchy} {entries : List Signature} {limit : Option Nat}

/-! ## Candidates -/

/-- Every candidate of a call has the sub-signature that the call names. -/
theorem sub_of_mem_resolve {call s : Signature} (hs : s ∈ (p.resolve h call).candidates) :
    s.sub = call.sub := by
  rw [resolve] at hs
  split at hs
  · simp at hs
  · rename_i target htarget
    split at hs
    · obtain ⟨owner, rfl, -⟩ := target_eq_ok.1 htarget
      rcases List.mem_cons.1 hs with rfl | hs
      · rfl
      · obtain ⟨name, -, hname⟩ := List.mem_filterMap.1 hs
        obtain ⟨rfl, -⟩ := override?_eq_some.1 hname
        rfl
    · simp at hs

/-- The calls of a method stand in the body of a declared one. -/
theorem exists_method_of_mem_calls {method : Signature} {call : Invocation}
    (hcall : call ∈ (p.calls method).1) : ∃ c ∈ p.classes, ∃ m ∈ c.methods, call ∈ m.calls := by
  cases hm : p.method? method with
  | none => simp [calls, hm] at hcall
  | some m =>
    obtain ⟨c, hc, hmethod⟩ := Option.bind_eq_some_iff.1 hm
    rw [calls, hm] at hcall
    exact ⟨c, mem_classes_of_class? hc, m, ClassDecl.mem_methods_of_method? hmethod, hcall⟩

/-- A node whose sub-signature no call names is an entry point. -/
theorem mem_entries_of_not_named {s : Signature}
    (hnamed : ∀ c ∈ p.classes, ∀ m ∈ c.methods, ∀ call ∈ m.calls, call.target.sub ≠ s.sub)
    (hs : s ∈ (p.construct h entries limit).graph.nodes) : s ∈ entries := by
  rcases mem_discovered_run.1 (mem_nodes_construct.1 hs) with hentry | ⟨caller, -, hcall⟩
  · exact hentry
  · obtain ⟨call, hmem, hcandidate⟩ := hcall
    obtain ⟨c, hc, m, hm, hmem⟩ := exists_method_of_mem_calls hmem
    exact absurd (sub_of_mem_resolve hcandidate).symm (hnamed c hc m hm call hmem)

/-! ## Signatures of readable programs -/

theorem Readable.owner_of_declares (hp : p.Readable) {s : Signature} (hs : p.declares s = true) :
    ReadableOwner s.owner := by
  obtain ⟨m, hm⟩ := Option.isSome_iff_exists.1 hs
  obtain ⟨c, hc, -⟩ := Option.bind_eq_some_iff.1 hm
  exact name_of_class? hc ▸ (hp c (mem_classes_of_class? hc)).name

theorem Readable.target_of_mem_calls (hp : p.Readable) {method : Signature} {call : Invocation}
    (hcall : call ∈ (p.calls method).1) : call.target.Readable := by
  obtain ⟨c, hc, m, hm, hcall⟩ := exists_method_of_mem_calls hcall
  exact (hp c hc).calls m hm call hcall

/-- What a method of a readable program may call is readable. -/
theorem Readable.of_mayCall (hp : p.Readable) {caller callee : Signature}
    (hcall : p.MayCall h caller callee) : callee.Readable := by
  obtain ⟨call, hmem, hcandidate⟩ := hcall
  refine ⟨hp.owner_of_declares (declares_of_mem_resolve hcandidate), ?_⟩
  rw [sub_of_mem_resolve hcandidate]
  exact (hp.target_of_mem_calls hmem).sub

/-! ## Entry points -/

theorem readable_of_isMain {s : SubSignature} (hs : s.isMain = true) : s.Readable := by
  obtain ⟨hname, htypes⟩ := Bool.and_eq_true_iff.1 hs
  have hname : s.name = mainName := of_decide_eq_true hname
  refine ⟨?_, ?_, ?_, ?_⟩
  · rw [hname]
    decide
  · rw [hname]
    decide
  · rw [hname]
    decide
  · split at htypes
    · rename_i types hparse
      exact ⟨types, hparse⟩
    · contradiction

theorem Readable.of_mem_mainMethods (hp : p.Readable) {entry : Signature}
    (hentry : entry ∈ p.mainMethods) : entry.Readable := by
  obtain ⟨c, hc, hentry⟩ := List.mem_flatMap.1 (List.mem_mergeSort.1 hentry)
  obtain ⟨m, hm, rfl⟩ := List.mem_map.1 hentry
  have hmain : m.sub.isMain = true := (Bool.and_eq_true_iff.1 (List.mem_filter.1 hm).2).2
  have hdeclared : p.class? c.name = some c :=
    class?_of_mem_applicationClasses (List.mem_filter.1 hc).1
  exact ⟨(hp c (mem_classes_of_class? hdeclared)).name, readable_of_isMain hmain⟩

/-! ## Nodes -/

/-- **The nodes of a readable program's call graph are readable if the entry points are.** -/
theorem Readable.of_mem_nodes (hp : p.Readable) (hentries : ∀ entry ∈ entries, entry.Readable)
    {method : Signature} (hmethod : method ∈ (p.construct h entries limit).graph.nodes) :
    method.Readable := by
  rcases mem_discovered_run.1 (mem_nodes_construct.1 hmethod) with hentry | ⟨caller, -, hcall⟩
  · exact hentries method hentry
  · exact hp.of_mayCall hcall

end Program

end DispatchGraph
