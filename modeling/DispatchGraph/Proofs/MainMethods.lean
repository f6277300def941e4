import DispatchGraph.Proofs.Descriptor
import DispatchGraph.Proofs.RepeatedMethods
import Mathlib.Algebra.BigOperators.Group.List.Basic

/-!
# The list of the main methods

Whether a sub-signature is that of a main method is decided by its types, not by its text. But
types have one written form, so only one text passes (`SubSignature.isMain_iff`). A class lists a
main method once for each static declaration of it (`Program.count_mainsOf`), and no other class has
its name. So the main methods of a program are listed in order, each as often as its class declares
it, for the classes of the application that are no interfaces (`Program.mainMethods_exact`).
-/

namespace DispatchGraph

/-! ## The text of a main method -/

theorem wellFormed_mainTypes : mainTypes.WellFormed where
  params t ht := by
    obtain rfl : t = .array (.object "java/lang/String") 1 := List.mem_singleton.1 ht
    have hname : ';' ∉ "java/lang/String".toList := by decide
    exact ⟨hname, by decide, by decide⟩
  result := trivial
  no_void := by decide

theorem text_mainTypes : mainTypes.text = "([Ljava/lang/String;)V" := by decide

/-- Only one text has the types of a main method. -/
theorem SubSignature.isMain_iff {s : SubSignature} :
    s.isMain = true ↔ s.name = "main" ∧ s.descriptor = "([Ljava/lang/String;)V" := by
  have htypes : s.types = .ok mainTypes ↔ s.descriptor = "([Ljava/lang/String;)V" := by
    rw [types, MethodDescriptor.parse_eq_ok, and_iff_right wellFormed_mainTypes, text_mainTypes,
      eq_comm]
  rw [← htypes, isMain, Bool.and_eq_true, decide_eq_true_eq, mainName]
  refine and_congr_right fun _ => ?_
  cases s.types with
  | error e => simp
  | ok types => simp

theorem SubSignature.isMain_eq (s : SubSignature) : s.isMain = decide (s = Program.mainSub) := by
  rw [Bool.eq_iff_iff, isMain_iff, decide_eq_true_eq, Program.mainSub, mainName]
  obtain ⟨name, descriptor⟩ := s
  simp

/-! ## Counting -/

/-- How often the class declares the sub-signature as a static method. -/
def ClassDecl.staticCount (c : ClassDecl) (sub : SubSignature) : Nat :=
  c.methods.countP fun m => m.isStatic && m.sub = sub

namespace Program

variable {p : Program} {c : ClassDecl}

/-- A class lists a main method once for each static declaration. -/
theorem count_mainsOf (c : ClassDecl) (sub : SubSignature) :
    (mainsOf c).count ⟨c.name, sub⟩ = if sub = mainSub then c.staticCount sub else 0 := by
  have hcount : (mainsOf c).count ⟨c.name, sub⟩ =
      c.methods.countP fun m => decide (m.sub = sub) && m.isMain := by
    rw [mainsOf, List.count, List.countP_map, List.countP_filter]
    refine List.countP_congr fun m _ => ?_
    simp
  rw [hcount]
  by_cases hsub : sub = mainSub
  · rw [if_pos hsub, ClassDecl.staticCount]
    refine List.countP_congr fun m _ => ?_
    rw [MethodDecl.isMain, SubSignature.isMain_eq, hsub, Bool.and_comm, Bool.and_assoc,
      Bool.and_self]
  · rw [if_neg hsub, List.countP_eq_zero]
    intro m _ hm
    obtain ⟨heq, hmain⟩ := Bool.and_eq_true_iff.1 hm
    have hmain : m.sub = mainSub := by
      simpa [SubSignature.isMain_eq] using (Bool.and_eq_true_iff.1 hmain).2
    exact hsub ((of_decide_eq_true heq).symm.trans hmain)

/-- The list of a class has no method of another one. -/
theorem count_mainsOf_of_ne {owner : ClassName} (howner : owner ≠ c.name) (sub : SubSignature) :
    (mainsOf c).count ⟨owner, sub⟩ = 0 := by
  refine List.count_eq_zero_of_not_mem fun hmem => ?_
  obtain ⟨m, -, heq⟩ := List.mem_map.1 hmem
  exact howner (Signature.mk.inj heq).1.symm

theorem count_mainMethods (hc : c ∈ p.mainClasses) (sub : SubSignature) :
    p.mainMethods.count ⟨c.name, sub⟩ = if sub = mainSub then c.staticCount sub else 0 := by
  have hnames : Increasing ClassDecl.name p.mainClasses := p.increasing_applicationClasses.filter _
  -- the names of the classes differ, so that one list alone has a part in the sum
  have hother : ∀ c', c' ≠ c → c' ∈ p.mainClasses →
      (mainsOf c').count ⟨c.name, sub⟩ = 0 := by
    intro c' hne hc'
    exact count_mainsOf_of_ne (fun heq => hne (hnames.eq_of_key_eq hc' hc heq.symm)) sub
  calc p.mainMethods.count ⟨c.name, sub⟩
      = (p.mainClasses.flatMap mainsOf).count ⟨c.name, sub⟩ := by
        rw [mainMethods_eq]
        exact (List.mergeSort_perm _ _).count_eq _
    _ = (p.mainClasses.map fun c' => (mainsOf c').count ⟨c.name, sub⟩).sum := List.count_flatMap
    _ = p.mainClasses.count c • (mainsOf c).count ⟨c.name, sub⟩ :=
        List.sum_map_eq_nsmul_single c _ hother
    _ = if sub = mainSub then c.staticCount sub else 0 := by
        rw [List.count_eq_one_of_mem hnames.nodup hc, one_nsmul, count_mainsOf]

/-- The list has the main methods of the program's classes. -/
structure ListsMains (p : Program) (entries : List Signature) : Prop where
  sorted : entries.Pairwise fun a b => (compare a b).isLE = true
  /-- Only classes of the application that are no interfaces have main methods. -/
  owner_mem : ∀ e ∈ entries, ∃ c ∈ p.applicationClasses, c.isInterface = false ∧ c.name = e.owner
  /-- A main method is listed as often as its class declares it as a static method, and other
  methods are not listed. -/
  count_eq : ∀ c ∈ p.applicationClasses, c.isInterface = false → ∀ sub,
    entries.count ⟨c.name, sub⟩ =
      if sub = ⟨"main", "([Ljava/lang/String;)V"⟩ then c.staticCount sub else 0

/-- **The list of the main methods is exact**, and only one text is that of a main method, though it
is the types that are looked at. -/
theorem mainMethods_exact (p : Program) :
    p.ListsMains p.mainMethods ∧
    ∀ s : SubSignature,
      s.isMain = true ↔ s.name = "main" ∧ s.descriptor = "([Ljava/lang/String;)V" := by
  refine ⟨⟨p.pairwise_mainMethods, fun e he => ?_, fun c hc hclass sub => ?_⟩,
    fun s => SubSignature.isMain_iff⟩
  · obtain ⟨c, hc, m, -, -, rfl⟩ := mem_mainMethods.1 he
    obtain ⟨hc, hclass⟩ := List.mem_filter.1 hc
    exact ⟨c, hc, by simpa using hclass, rfl⟩
  · exact count_mainMethods (List.mem_filter.2 ⟨hc, by simp [hclass]⟩) sub

end Program

end DispatchGraph
