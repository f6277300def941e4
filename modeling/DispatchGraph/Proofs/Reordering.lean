import DispatchGraph.Proofs.Determination
import DispatchGraph.Proofs.Extension
import DispatchGraph.Proofs.Outline

/-!
# Declarations in another order

Classes may be given in another order, and so may the interfaces and methods of a class and the
statements of a body (`ClassDecl.Reordered`). If no name is declared twice, and no sub-signature in
one class, this does not matter to a lookup: it finds the same declaration, reordered inside
(`Program.Reordered`). Dispatch then goes as before (`Program.Reordered.sameOutline`), and a visit
finds the same callees (`Program.Reordered.visit`), because these are kept in order. As the callees
are met in that order, runs go the same way, also when a limit cuts them short
(`Program.construct_of_reordered`).
-/

namespace DispatchGraph

open Relation Std

/-! ## Lists in another order -/

/-- The lists have the same items up to `R`, in whatever order. -/
def Rearranged {α : Type} (R : α → α → Prop) (xs ys : List α) : Prop :=
  ∃ zs, xs.Perm zs ∧ List.Forall₂ R zs ys

section

variable {α κ : Type} [DecidableEq κ] {R : α → α → Prop} {key : α → κ} {xs ys : List α}

theorem find?_eq_of_perm (hperm : xs.Perm ys) (hnodup : (xs.map key).Nodup) (k : κ) :
    (xs.find? fun a => key a = k) = ys.find? fun a => key a = k := by
  induction hperm with
  | nil => rfl
  | cons a _ ih =>
    rw [List.find?_cons, List.find?_cons, ih (List.nodup_cons.1 hnodup).2]
  | swap a b rest =>
    have hne : key b ≠ key a := by
      intro heq
      simp [heq] at hnodup
    simp only [List.find?_cons]
    by_cases ha : key a = k
    · have hb : key b ≠ k := fun hb => hne (hb.trans ha.symm)
      simp [ha, hb]
    · simp [ha]
  | trans hxy _ ihxy ihyz =>
    rw [ihxy hnodup, ihyz ((hxy.map key).nodup_iff.1 hnodup)]

/-- Where keys tell the items apart, looking up a key finds corresponding items. -/
theorem Rearranged.find? (h : Rearranged R xs ys) (hkey : ∀ a b, R a b → key a = key b)
    (hnodup : (xs.map key).Nodup) (k : κ) :
    Option.Rel R (xs.find? fun a => key a = k) (ys.find? fun a => key a = k) := by
  obtain ⟨zs, hperm, hforall⟩ := h
  rw [find?_eq_of_perm hperm hnodup]
  exact rel_find?_of_forall₂ hforall hkey k

end

/-! ## Declarations -/

/-- The statements of the method are in another order. -/
structure MethodDecl.Reordered (m m' : MethodDecl) : Prop where
  sub_eq : m.sub = m'.sub
  isStatic_eq : m.isStatic = m'.isStatic
  body : Option.Rel List.Perm m.body m'.body

/-- The interfaces and the methods of the class are in another order, and so are the statements of
the methods. -/
structure ClassDecl.Reordered (c c' : ClassDecl) : Prop where
  name_eq : c.name = c'.name
  superclass_eq : c.superclass = c'.superclass
  interfaces : c.interfaces.Perm c'.interfaces
  isInterface_eq : c.isInterface = c'.isInterface
  methods : Rearranged MethodDecl.Reordered c.methods c'.methods

/-- Every sub-signature is declared once in the class. -/
def ClassDecl.DistinctMethods (c : ClassDecl) : Prop := (c.methods.map MethodDecl.sub).Nodup

/-- The programs declare the same classes up to the order inside them. -/
structure Program.Reordered (p q : Program) : Prop where
  class? : ∀ name, Option.Rel ClassDecl.Reordered (p.class? name) (q.class? name)
  distinct : ∀ name c, p.class? name = some c → c.DistinctMethods

theorem MethodDecl.Reordered.calls {m m' : MethodDecl} (h : m.Reordered m') :
    m.calls.Perm m'.calls := by
  rw [MethodDecl.calls, MethodDecl.calls]
  rcases rel_option_cases h.body with ⟨hm, hm'⟩ | ⟨body, body', hm, hm', hperm⟩
  · rw [hm, hm']
  · rw [hm, hm']
    exact hperm.filterMap _

namespace ClassDecl.Reordered

variable {c c' : ClassDecl}

theorem method? (h : c.Reordered c') (hdistinct : c.DistinctMethods) (sub : SubSignature) :
    Option.Rel MethodDecl.Reordered (c.method? sub) (c'.method? sub) :=
  h.methods.find? (fun _ _ hm => hm.sub_eq) hdistinct sub

theorem declares (h : c.Reordered c') (hdistinct : c.DistinctMethods) (sub : SubSignature) :
    c.declares sub = c'.declares sub :=
  isSome_eq_of_rel (h.method? hdistinct sub)

theorem sameOutline (h : c.Reordered c') (hdistinct : c.DistinctMethods) : c.SameOutline c' where
  name_eq := h.name_eq
  superclass_eq := h.superclass_eq
  mem_interfaces _ := h.interfaces.mem_iff
  isInterface_eq := h.isInterface_eq
  declares_eq := h.declares hdistinct

end ClassDecl.Reordered

/-! ## Programs -/

namespace Program

/-- Lists of declarations that differ in order only make programs that do. -/
theorem reordered_addClasses {classes classes' : List ClassDecl}
    (hclasses : Rearranged ClassDecl.Reordered classes classes')
    (hnames : (classes.map ClassDecl.name).Nodup)
    (hdistinct : ∀ c ∈ classes, c.DistinctMethods) (origin origin' : Origin) :
    (empty.addClasses origin classes).1.Reordered (empty.addClasses origin' classes').1 where
  class? name := by
    rw [class?_addClasses, class?_addClasses]
    exact hclasses.find? (fun _ _ hc => hc.name_eq) hnames name
  distinct name c hc := by
    rw [class?_addClasses] at hc
    exact hdistinct c (List.mem_of_find?_eq_some hc)

namespace Reordered

variable {p q : Program}

/-- What a name is declared as in both programs, if it is declared at all. -/
theorem class?_cases (h : p.Reordered q) (name : ClassName) :
    (p.class? name = none ∧ q.class? name = none) ∨
      ∃ c c', p.class? name = some c ∧ q.class? name = some c' ∧ c.Reordered c' ∧
        c.DistinctMethods := by
  rcases rel_option_cases (h.class? name) with hnone | ⟨c, c', hp, hq, hc⟩
  · exact .inl hnone
  · exact .inr ⟨c, c', hp, hq, hc, h.distinct name c hp⟩

theorem method? (h : p.Reordered q) (s : Signature) :
    Option.Rel MethodDecl.Reordered (p.method? s) (q.method? s) := by
  rw [Program.method?, Program.method?]
  rcases h.class?_cases s.owner with ⟨hp, hq⟩ | ⟨c, c', hp, hq, hc, hdistinct⟩
  · rw [hp, hq]
    exact .none
  · rw [hp, hq]
    exact hc.method? hdistinct s.sub

/-- The calls of a method are the same, in another order. -/
theorem calls (h : p.Reordered q) (s : Signature) : (p.calls s).1.Perm (q.calls s).1 := by
  rw [Program.calls, Program.calls]
  rcases rel_option_cases (h.method? s) with ⟨hp, hq⟩ | ⟨m, m', hp, hq, hm⟩
  · rw [hp, hq]
  · rw [hp, hq]
    exact hm.calls

/-- Dispatch cannot tell the programs apart: it reads no list in its order. -/
theorem sameOutline (h : p.Reordered q) : p.SameOutline q := by
  intro name
  rcases h.class?_cases name with ⟨hp, hq⟩ | ⟨c, c', hp, hq, hc, hdistinct⟩
  · rw [hp, hq]
    exact .none
  · rw [hp, hq]
    exact .some (hc.sameOutline hdistinct)

end Reordered

end Program

/-! ## Visits -/

theorem SortedSet.ofList_eq_of_perm {α : Type} [Ord α] [TransOrd α] [LawfulEqOrd α] {xs ys : List α}
    (h : xs.Perm ys) : (Sorted.ofList xs : SortedSet α) = Sorted.ofList ys := by
  refine Sorted.ext_mem fun a => ?_
  rw [SortedSet.mem_ofList, SortedSet.mem_ofList, h.mem_iff]

/-- The callees do not depend on the order of the calls. -/
theorem calleesOf_eq_of_perm {sites sites' : List Site} (h : sites.Perm sites') :
    calleesOf sites = calleesOf sites' := by
  have htargets : (targetsOf sites).Perm (targetsOf sites') := h.flatMap_right _
  have hkinds : ∀ callee : Signature,
      (Sorted.ofList (((targetsOf sites).filter fun t => t.1 = callee).map Prod.snd) :
        SortedSet CallKind) =
      Sorted.ofList (((targetsOf sites').filter fun t => t.1 = callee).map Prod.snd) :=
    fun callee => SortedSet.ofList_eq_of_perm ((htargets.filter _).map _)
  simp only [calleesOf, hkinds, SortedSet.ofList_eq_of_perm (htargets.map Prod.fst)]

namespace Program

/-- A visit meets the calls in another order and finds the same. -/
theorem Reordered.visit {p q : Program} (h : p.Reordered q) (method : Signature) :
    (p.visit p.hierarchy method).Agrees (q.visit q.hierarchy method) := by
  have hsites : (p.visit p.hierarchy method).sites.Perm (q.visit q.hierarchy method).sites := by
    simp only [sites_visit, h.sameOutline.resolve]
    exact (h.calls method).map _
  refine ⟨?_, hsites.length_eq, hsites.countP_eq _⟩
  rw [callees_visit, callees_visit, calleesOf_eq_of_perm hsites]

/-! ## Constructions -/

/-- **The order of declarations does not matter**, under every limit: not that of the classes, nor
that of the interfaces, the methods and the statements inside them, as long as no name is declared
twice and no sub-signature twice in one class. -/
theorem construct_of_reordered {classes classes' : List ClassDecl}
    (hclasses : Rearranged ClassDecl.Reordered classes classes')
    (hnames : (classes.map ClassDecl.name).Nodup)
    (hmethods : ∀ c ∈ classes, (c.methods.map MethodDecl.sub).Nodup) (origin origin' : Origin)
    (entries : List Signature) (limit : Option Nat) :
    (empty.addClasses origin classes).1.construct (empty.addClasses origin classes).1.hierarchy
        entries limit =
      (empty.addClasses origin' classes').1.construct
        (empty.addClasses origin' classes').1.hierarchy entries limit := by
  have hreordered : (empty.addClasses origin classes).1.Reordered
      (empty.addClasses origin' classes').1 :=
    reordered_addClasses hclasses hnames hmethods origin origin'
  exact construct_congr fun method _ => hreordered.visit method

/-- A method that is called through an interface. -/
def runMethod (body : Option (List Statement)) : MethodDecl := ⟨⟨"run", "()V"⟩, false, body⟩

/-- A static method. -/
def helpMethod : MethodDecl := ⟨⟨"help", "()V"⟩, true, none⟩

/-- A method that calls others. -/
def startMethod (body : List Statement) : MethodDecl := ⟨⟨"start", "()V"⟩, true, some body⟩

/-- A call through the interface. -/
def runCall (kind : CallKind) : Statement := .invoke ⟨⟨"Task", "run", "()V"⟩, kind⟩

/-- A static call. -/
def helpCall : Statement := .assign "x" (.invoke ⟨⟨"App", "help", "()V"⟩, .static⟩)

/-- A class that calls, an interface, and a class that implements it. -/
def taskClasses : List ClassDecl :=
  [⟨"App", none, [], false,
      [startMethod [runCall .interface, helpCall, runCall .special], helpMethod]⟩,
    ⟨"Task", none, [], true, [runMethod none]⟩,
    ⟨"Worker", none, ["Task", "Other"], false, [runMethod (some [])]⟩]

/-- The same classes in another order, inside and out. -/
def taskClassesShuffled : List ClassDecl :=
  [⟨"Worker", none, ["Other", "Task"], false, [runMethod (some [])]⟩,
    ⟨"App", none, [], false,
      [helpMethod, startMethod [runCall .special, runCall .interface, helpCall]]⟩,
    ⟨"Task", none, [], true, [runMethod none]⟩]

theorem rearranged_taskClasses :
    Rearranged ClassDecl.Reordered taskClasses taskClassesShuffled := by
  have hrun : ∀ body, (runMethod body).Reordered (runMethod body) := by
    rintro (_ | body)
    · exact ⟨rfl, rfl, .none⟩
    · exact ⟨rfl, rfl, .some (.refl body)⟩
  have hhelp : helpMethod.Reordered helpMethod := ⟨rfl, rfl, .none⟩
  have hstart : (startMethod [runCall .interface, helpCall, runCall .special]).Reordered
      (startMethod [runCall .special, runCall .interface, helpCall]) :=
    ⟨rfl, rfl, .some (by decide)⟩
  refine ⟨[taskClasses[2], taskClasses[0], taskClasses[1]], by decide, ?_⟩
  refine .cons ⟨rfl, rfl, by decide, rfl, _, .refl _, .cons (hrun _) .nil⟩ ?_
  refine .cons ⟨rfl, rfl, by decide, rfl, _, .swap _ _ _, .cons hhelp (.cons hstart .nil)⟩ ?_
  exact .cons ⟨rfl, rfl, by decide, rfl, _, .refl _, .cons (hrun _) .nil⟩ .nil

theorem construct_of_reordered_tasks :
    Rearranged ClassDecl.Reordered taskClasses taskClassesShuffled ∧
    (taskClasses.map ClassDecl.name).Nodup ∧
    (∀ c ∈ taskClasses, (c.methods.map MethodDecl.sub).Nodup) ∧
    (empty.addClasses .application taskClasses).1.construct
        (empty.addClasses .application taskClasses).1.hierarchy [⟨"App", "start", "()V"⟩] (some 2) =
      (empty.addClasses .application taskClassesShuffled).1.construct
        (empty.addClasses .application taskClassesShuffled).1.hierarchy [⟨"App", "start", "()V"⟩]
        (some 2) := by
  have hnames : (taskClasses.map ClassDecl.name).Nodup := by decide
  have hmethods : ∀ c ∈ taskClasses, (c.methods.map MethodDecl.sub).Nodup := by decide
  exact ⟨rearranged_taskClasses, hnames, hmethods,
    construct_of_reordered rearranged_taskClasses hnames hmethods _ _ _ _⟩

end Program

end DispatchGraph
