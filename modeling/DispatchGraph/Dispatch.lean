import DispatchGraph.Hierarchy

/-!
# Dispatch

Which methods may run for a call. The call names a method of a class; the method that the call
binds to is declared by that class or by the nearest superclass that declares it
(`Program.target`). Besides it, every class below the one found may bring an override
(`Program.resolve`): the candidates of a call are the target and its overrides.

A walk up the superclasses that leaves the program, comes back to a class, or ends, finds nothing
and says why. Every candidate is a declared method, whatever the hierarchy answers
(`declares_of_mem_resolve`).
-/

namespace DispatchGraph

namespace Program

/-! ## The target of a call -/

/-- Walk up from a class to the nearest declaration of a method. `visited` are the names met so
far. -/
def climb (p : Program) (call : Signature) (visited : List ClassName) (c : ClassDecl) :
    Except Unresolved Signature :=
  if c.declares call.sub then .ok (call.rebase c.name)
  else
    match c.superclass with
    | none => .error .noImplementation
    | some ancestor =>
      if _hv : ancestor ∈ visited then .error (.cycle ancestor)
      else
        match _h : p.class? ancestor with
        | none => .error (.ancestorMissing ancestor)
        | some c => p.climb call (ancestor :: visited) c
termination_by remaining p.classNames fun name => name ∈ visited
decreasing_by
  refine remaining_lt (a := ancestor) (fun name hname => ?_) (mem_classNames_of_class? _h) ?_ ?_
  · exact decide_eq_true (List.mem_cons_of_mem _ (of_decide_eq_true hname))
  · exact decide_eq_false _hv
  · exact decide_eq_true List.mem_cons_self

/-- The declared method that a call binds to. -/
def target (p : Program) (call : Signature) : Except Unresolved Signature :=
  match p.class? call.owner with
  | none => .error .classMissing
  | some c => p.climb call [c.name] c

/-! ## The candidates of a call -/

/-- What a call may run, and what was reported on the way. -/
structure Resolution where
  candidates : List Signature
  diagnostics : List Diagnostic

/-- The override of a method in a class that is declared and no interface. -/
def override? (p : Program) (target : Signature) (name : ClassName) : Option Signature :=
  match p.class? name with
  | none => none
  | some c => if !c.isInterface && c.declares target.sub then some (target.rebase name) else none

/-- The classes that may override a method. -/
def substitutes (h : Hierarchy) (target : Signature) : List ClassName :=
  if h.isInterface target.owner then h.implementersOf target.owner
  else h.subclassesOf target.owner

/-- The methods that a call may run: its target, then the overrides in the order in which the
hierarchy lists their classes. -/
def resolve (p : Program) (h : Hierarchy) (call : Signature) : Resolution :=
  match p.target call with
  | .error cause => ⟨[], [.unresolved call cause]⟩
  | .ok target =>
    if h.contains target.owner then
      let names := substitutes h target
      ⟨target :: names.filterMap (p.override? target),
        (names.filter fun name => (p.class? name).isNone).map .subtypeMissing⟩
    else ⟨[], [.outsideHierarchy target]⟩

/-! ## Candidates are declared -/

theorem declares_of_climb {p : Program} {call s : Signature} {visited : List ClassName}
    {c : ClassDecl} (hc : p.class? c.name = some c) (h : p.climb call visited c = .ok s) :
    p.declares s = true := by
  fun_induction climb p call visited c with
  | case1 visited c hdecl =>
    obtain rfl : call.rebase c.name = s := by simpa using h
    simpa [declares, method?, Signature.rebase, hc, ClassDecl.declares] using hdecl
  | case2 => simp at h
  | case3 => simp at h
  | case4 => simp at h
  | case5 visited c _ ancestor _ _ c' hc' ih =>
    exact ih (by rw [name_of_class? hc', hc']) h

theorem declares_of_target {p : Program} {call s : Signature} (h : p.target call = .ok s) :
    p.declares s = true := by
  unfold target at h
  split at h
  · contradiction
  · rename_i c hc
    exact declares_of_climb (by rw [name_of_class? hc, hc]) h

theorem declares_of_override? {p : Program} {target s : Signature} {name : ClassName}
    (h : p.override? target name = some s) : p.declares s = true := by
  unfold override? at h
  split at h
  · contradiction
  · rename_i c hc
    split at h
    · rename_i hdecl
      obtain rfl : target.rebase name = s := by simpa using h
      have hdecl : c.declares target.sub = true := (Bool.and_eq_true _ _ ▸ hdecl).2
      simpa [declares, method?, Signature.rebase, hc, ClassDecl.declares] using hdecl
    · contradiction

theorem declares_of_mem_resolve {p : Program} {h : Hierarchy} {call s : Signature}
    (hs : s ∈ (p.resolve h call).candidates) : p.declares s = true := by
  unfold resolve at hs
  split at hs
  · simp at hs
  · rename_i target ht
    split at hs
    · rcases List.mem_cons.1 hs with rfl | hs
      · exact declares_of_target ht
      · obtain ⟨name, _, hname⟩ := List.mem_filterMap.1 hs
        exact declares_of_override? hname
    · simp at hs

end Program

end DispatchGraph
