import DispatchGraph.Program

/-!
# The calls of a method

Which statements of a body make a call is a relation (`Statement.Makes`), and the calls of a method
are read against it: they are the calls that its statements make (`Program.mem_calls`), and there
are as many of them, of whatever sort, as statements that make one (`Program.length_calls`,
`Program.countP_calls`), so that a call that is written twice counts twice.
-/

namespace DispatchGraph

/-- The statement is the call, or assigns what the call returns. -/
inductive Statement.Makes : Statement → Invocation → Prop
  | invoke (call : Invocation) : Makes (.invoke call) call
  | assign (localName : String) (call : Invocation) : Makes (.assign localName (.invoke call)) call

namespace Statement

variable {s : Statement} {call : Invocation}

theorem invocation?_eq_some : s.invocation? = some call ↔ s.Makes call := by
  constructor
  · intro h
    cases s with
    | invoke other =>
      obtain rfl : other = call := Option.some.inj h
      exact .invoke other
    | assign localName value =>
      cases value with
      | invoke other =>
        obtain rfl : other = call := Option.some.inj h
        exact .assign localName other
      | other => cases h
    | other => cases h
  · rintro (_ | _) <;> rfl

instance (s : Statement) (P : Invocation → Prop) [DecidablePred P] :
    Decidable (∃ call, s.Makes call ∧ P call) :=
  decidable_of_iff (∃ call ∈ s.invocation?, P call) <|
    exists_congr fun _ => and_congr_left' invocation?_eq_some

instance (s : Statement) : Decidable (∃ call, s.Makes call) :=
  decidable_of_iff (s.invocation?.isSome = true) <| by
    simp only [Option.isSome_iff_exists, invocation?_eq_some]

end Statement

namespace Program

variable {p : Program} {method : Signature}

/-- The statements of a method; there are none if it is not declared or has no body. -/
def statements (p : Program) (method : Signature) : List Statement :=
  ((p.method? method).bind MethodDecl.body).getD []

theorem calls_eq_filterMap_statements :
    (p.calls method).1 = (p.statements method).filterMap Statement.invocation? := by
  rw [calls, statements]
  cases p.method? method with
  | none => rfl
  | some m => rfl

/-- The calls of a method are those that its statements make. -/
theorem mem_calls {call : Invocation} :
    call ∈ (p.calls method).1 ↔ ∃ statement ∈ p.statements method, statement.Makes call := by
  simp only [calls_eq_filterMap_statements, List.mem_filterMap, Statement.invocation?_eq_some]

/-- There are as many calls of a sort as statements that make one of that sort. -/
theorem countP_calls (P : Invocation → Prop) [DecidablePred P] :
    (p.calls method).1.countP P =
      (p.statements method).countP fun statement => ∃ call, statement.Makes call ∧ P call := by
  rw [calls_eq_filterMap_statements, List.countP_filterMap]
  refine List.countP_congr fun statement _ => ?_
  simp only [decide_eq_true_eq, ← Statement.invocation?_eq_some]
  cases statement.invocation? <;> simp

theorem length_calls :
    (p.calls method).1.length =
      (p.statements method).countP fun statement => ∃ call, statement.Makes call := by
  rw [calls_eq_filterMap_statements, List.length_filterMap_eq_countP]
  refine List.countP_congr fun statement _ => ?_
  simp only [Option.isSome_iff_exists, decide_eq_true_eq, Statement.invocation?_eq_some]

end Program

end DispatchGraph
