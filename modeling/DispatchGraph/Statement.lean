import DispatchGraph.Signature

/-!
# Statements of method bodies

Of a body only the calls matter: a statement is a call, an assignment, whose right side may be a
call, or anything else. A call names the method that it was compiled against and the kind of the
call instruction. Every kind is dispatched alike; the kind only travels to the reports.
-/

namespace DispatchGraph

open Std

/-- The kind of a call instruction, in the order in which kinds are reported. -/
inductive CallKind where
  | virtual | interface | special | static
  deriving DecidableEq

namespace CallKind

/-- The name of a kind. -/
def text : CallKind → String
  | virtual => "virtual"
  | interface => "interface"
  | special => "special"
  | static => "static"

/-- All kinds in order. -/
def all : List CallKind := [virtual, interface, special, static]

/-- The kind with a given name. -/
def ofText? (name : String) : Option CallKind := all.find? fun kind => kind.text = name

/-- The place of a kind in the order. -/
def rank : CallKind → Nat
  | virtual => 0
  | interface => 1
  | special => 2
  | static => 3

end CallKind

instance : Ord CallKind := ⟨compareOn CallKind.rank⟩

instance : TransOrd CallKind := inferInstanceAs (TransCmp (compareOn CallKind.rank))

instance : LawfulEqOrd CallKind where
  eq_of_compare {a b} h := by
    have h : compare a.rank b.rank = .eq := h
    have h : a.rank = b.rank := LawfulEqCmp.compare_eq_iff_eq.1 h
    cases a <;> cases b <;> simp [CallKind.rank] at h ⊢

/-- A call and the method it names. -/
structure Invocation where
  target : Signature
  kind : CallKind
  deriving DecidableEq

/-- The right side of an assignment. -/
inductive Expression where
  | invoke (call : Invocation)
  | other
  deriving DecidableEq

/-- A statement. -/
inductive Statement where
  | invoke (call : Invocation)
  | assign (localName : String) (value : Expression)
  | other
  deriving DecidableEq

/-- The call that a statement makes, by itself or on the right of an assignment. -/
def Statement.invocation? : Statement → Option Invocation
  | invoke call => some call
  | assign _ (.invoke call) => some call
  | assign _ .other => none
  | other => none

end DispatchGraph
