import DispatchGraph.EntryPoint
import DispatchGraph.Proofs.UnreachedBodies

/-!
# Repeated declarations of a method

A class may declare a sub-signature several times. Looking up a method finds the first declaration,
so a program in which every class keeps only these (`Program.withoutRepeats`) has the same outline
and makes the same calls: from any entry points, runs on it are the runs on the program
(`Program.run_withoutRepeats`).

The main methods of a program are not looked up. They are listed declaration by declaration, and so
a later declaration counts as well: a method that is declared again as a static one is listed even
if the one that a lookup finds is not static, and one that is declared twice as a static method is
listed twice. The list is that of the first declarations precisely when no main method of the
application comes after another declaration of its sub-signature (`Program.MainsFirst`), and
precisely then every entry of the list is found as a static method and none is listed twice. That an
entry is listed twice does not matter to a run, as the list is sorted
(`Program.construct_eq_of_sorted`), but that one is not found as a static method does
(`Program.construct_mainMethods_iff`). `Program.first_method_wins_iff` has all of this.
-/

namespace DispatchGraph

/-! ## First declarations -/

/-- The methods without those whose sub-signature an earlier one has. -/
def firstMethods : List MethodDecl → List MethodDecl
  | [] => []
  | m :: ms => m :: (firstMethods ms).filter fun m' => m'.sub ≠ m.sub

/-- The class with the first declaration of each sub-signature. -/
def ClassDecl.withoutRepeats (c : ClassDecl) : ClassDecl :=
  { c with methods := firstMethods c.methods }

theorem ClassDecl.name_withoutRepeats (c : ClassDecl) : c.withoutRepeats.name = c.name := rfl

/-- The program whose classes keep the first declaration of each sub-signature. -/
def Program.withoutRepeats (p : Program) : Program :=
  p.mapClasses ClassDecl.withoutRepeats ClassDecl.name_withoutRepeats

theorem find?_firstMethods (ms : List MethodDecl) (sub : SubSignature) :
    ((firstMethods ms).find? fun m => m.sub = sub) = ms.find? fun m => m.sub = sub := by
  induction ms with
  | nil => rfl
  | cons m ms ih =>
    rw [firstMethods, List.find?_cons, List.find?_cons]
    by_cases hsub : m.sub = sub
    · simp only [hsub, decide_true]
    · -- what is dropped after `m` has another sub-signature than the one that is looked for
      have hdropped : (fun m' : MethodDecl =>
          decide (decide (m'.sub ≠ m.sub) = true ∧ decide (m'.sub = sub) = true)) =
          fun m' => decide (m'.sub = sub) := by
        ext m'
        by_cases hm' : m'.sub = sub
        · simp [hm', Ne.symm hsub]
        · simp [hm']
      simp only [hsub, decide_false]
      rw [List.find?_filter, hdropped, ih]

theorem pairwise_firstMethods (ms : List MethodDecl) :
    (firstMethods ms).Pairwise fun m m' => m.sub ≠ m'.sub := by
  induction ms with
  | nil => exact .nil
  | cons m ms ih =>
    refine .cons (fun m' hm' => ?_) (ih.filter _)
    exact Ne.symm (of_decide_eq_true (List.mem_filter.1 hm').2)

theorem mem_of_mem_firstMethods {ms : List MethodDecl} {m : MethodDecl}
    (hm : m ∈ firstMethods ms) : m ∈ ms := by
  induction ms with
  | nil => exact hm
  | cons m₀ ms ih =>
    rcases List.mem_cons.1 hm with rfl | hm
    · exact List.mem_cons_self
    · exact List.mem_cons_of_mem m₀ (ih (List.mem_filter.1 hm).1)

theorem ClassDecl.method?_withoutRepeats (c : ClassDecl) (sub : SubSignature) :
    c.withoutRepeats.method? sub = c.method? sub :=
  find?_firstMethods c.methods sub

theorem ClassDecl.sameOutline_withoutRepeats (c : ClassDecl) : c.SameOutline c.withoutRepeats where
  name_eq := rfl
  superclass_eq := rfl
  mem_interfaces _ := Iff.rfl
  isInterface_eq := rfl
  declares_eq sub := by rw [declares, declares, method?_withoutRepeats]

namespace Program

theorem method?_withoutRepeats (p : Program) (s : Signature) :
    p.withoutRepeats.method? s = p.method? s := by
  rw [method?, method?, withoutRepeats, class?_mapClasses]
  cases p.class? s.owner with
  | none => rfl
  | some c => exact c.method?_withoutRepeats s.sub

/-- Runs from given entry points do not see repeated declarations. -/
theorem run_withoutRepeats (p : Program) (entries : List Signature) (limit : Option Nat) :
    p.withoutRepeats.run p.withoutRepeats.hierarchy entries limit =
      p.run p.hierarchy entries limit := by
  have houtline : p.SameOutline p.withoutRepeats :=
    sameOutline_mapClasses ClassDecl.sameOutline_withoutRepeats
  refine (houtline.run_eq fun method _ => ?_).symm
  rw [calls, calls, method?_withoutRepeats]

theorem construct_withoutRepeats (p : Program) (entries : List Signature) (limit : Option Nat) :
    p.withoutRepeats.construct p.withoutRepeats.hierarchy entries limit =
      p.construct p.hierarchy entries limit := by
  rw [construct, construct, run_withoutRepeats]

end Program

/-! ## Repeated entry points -/

namespace Frontier

open Std

variable {α : Type} [Ord α] [TransOrd α] [LawfulEqOrd α] [DecidableEq α]

theorem discover_discover (f : Frontier α) (a : α) : (f.discover a).discover a = f.discover a :=
  if_pos (mem_seen_discover.2 (.inl rfl))

/-- Where points are met in order, one that is met again comes right after itself. -/
theorem discoverAll_dedup (f : Frontier α) {xs : List α}
    (hsorted : xs.Pairwise fun a b => (compare a b).isLE = true) :
    f.discoverAll xs.dedup = f.discoverAll xs := by
  induction xs generalizing f with
  | nil => rfl
  | cons a xs ih =>
    obtain ⟨hfirst, hrest⟩ := List.pairwise_cons.1 hsorted
    by_cases hmem : a ∈ xs
    · rw [List.dedup_cons_of_mem hmem, ih f hrest]
      cases xs with
      | nil => exact absurd hmem List.not_mem_nil
      | cons b ys =>
        obtain rfl : a = b := by
          rcases List.mem_cons.1 hmem with hab | hmem
          · exact hab
          · have hab : (compare a b).isLE = true := hfirst b List.mem_cons_self
            have hba : (compare b a).isLE = true := (List.pairwise_cons.1 hrest).1 a hmem
            exact LawfulEqCmp.compare_eq_iff_eq.1 (OrientedCmp.isLE_antisymm hab hba)
        rw [discoverAll_cons, discoverAll_cons, discoverAll_cons, discover_discover]
    · rw [List.dedup_cons_of_notMem hmem, discoverAll_cons, discoverAll_cons]
      exact ih (f.discover a) hrest

end Frontier

namespace Program

variable {p : Program} {h : Hierarchy} {entries entries' : List Signature}

/-- Sorted lists of the same entry points make the same construction under every limit, however
often an entry point is listed. -/
theorem construct_eq_of_sorted (hsorted : entries.Pairwise fun a b => (compare a b).isLE = true)
    (hsorted' : entries'.Pairwise fun a b => (compare a b).isLE = true)
    (hmem : ∀ e, e ∈ entries ↔ e ∈ entries') (limit : Option Nat) :
    p.construct h entries limit = p.construct h entries' limit := by
  have hdedup : entries.dedup = entries'.dedup := by
    refine (increasing_dedup hsorted).ext_mem (increasing_dedup hsorted') fun e => ?_
    rw [List.mem_dedup, List.mem_dedup, hmem]
  have hrun : p.run h entries limit = p.run h entries' limit := by
    unfold run Space.explore
    rw [← Frontier.discoverAll_dedup _ hsorted, hdedup, Frontier.discoverAll_dedup _ hsorted']
  refine construct_eq ?_ (.of_eq (by rw [hrun])) (fun method => by rw [hrun]) fun method _ =>
    ⟨rfl, rfl, rfl⟩
  change (p.run h entries limit).isComplete = (p.run h entries' limit).isComplete
  rw [hrun]

/-- A limit of no visits leaves the entry points alone. -/
theorem mem_nodes_construct_zero {e : Signature} :
    e ∈ (p.construct h entries (some 0)).graph.nodes ↔ e ∈ entries := by
  have hvisited : (p.run h entries (some 0)).visited = [] := by
    rw [visited_run_some, List.take_zero]
  rw [mem_nodes_construct, mem_discovered_run, hvisited]
  simp

end Program

/-! ## Main methods of a class -/

/-- The method is static and has the sub-signature of a main method. -/
def MethodDecl.isMain (m : MethodDecl) : Bool := m.isStatic && m.sub.isMain

theorem MethodDecl.isMain_of_sub_eq {m m' : MethodDecl} (hstatic : m'.isStatic = true)
    (hsub : m'.sub = m.sub) (hmain : m.isMain = true) : m'.isMain = true := by
  unfold isMain at hmain ⊢
  rw [hstatic, hsub, (Bool.and_eq_true_iff.1 hmain).2]
  rfl

/-- No main method comes after another declaration of its sub-signature. -/
def MainsAreFirst (ms : List MethodDecl) : Prop :=
  ms.Pairwise fun m m' => m'.isMain = true → m.sub ≠ m'.sub

theorem mainsAreFirst_firstMethods (ms : List MethodDecl) : MainsAreFirst (firstMethods ms) := by
  refine List.Pairwise.imp ?_ (pairwise_firstMethods ms)
  intro m m' hne _
  exact hne

namespace MainsAreFirst

variable {ms : List MethodDecl}

/-- Then the main methods are first declarations. -/
theorem filter_firstMethods (h : MainsAreFirst ms) :
    (firstMethods ms).filter MethodDecl.isMain = ms.filter MethodDecl.isMain := by
  induction ms with
  | nil => rfl
  | cons m ms ih =>
    obtain ⟨hfirst, hrest⟩ := List.pairwise_cons.1 h
    have hkept : ((firstMethods ms).filter fun m' => m'.sub ≠ m.sub).filter
        MethodDecl.isMain = (firstMethods ms).filter MethodDecl.isMain := by
      rw [List.filter_comm, ih hrest]
      refine List.filter_eq_self.2 fun m' hm' => decide_eq_true ?_
      obtain ⟨hmem, hmain⟩ := List.mem_filter.1 hm'
      exact (hfirst m' hmem hmain).symm
    rw [firstMethods, List.filter_cons, List.filter_cons, hkept, ih hrest]

/-- Then a lookup finds each main method. -/
theorem find?_eq_some (h : MainsAreFirst ms) {m : MethodDecl} (hm : m ∈ ms)
    (hmain : m.isMain = true) : (ms.find? fun m' => m'.sub = m.sub) = some m := by
  induction ms with
  | nil => exact absurd hm List.not_mem_nil
  | cons m₀ ms ih =>
    obtain ⟨hfirst, hrest⟩ := List.pairwise_cons.1 h
    rcases List.mem_cons.1 hm with rfl | hm
    · simp
    · rw [List.find?_cons_of_neg (by simpa using hfirst m hm hmain)]
      exact ih hrest hm

/-- Then no main method is there twice. -/
theorem nodup_subs (h : MainsAreFirst ms) :
    ((ms.filter MethodDecl.isMain).map MethodDecl.sub).Nodup := by
  refine List.pairwise_map.2 (List.pairwise_filter.2 (h.imp fun hne _ hmain => ?_))
  exact hne hmain

/-- Conversely, if a lookup finds a static method for each main method, and none is there twice, a
main method has no declaration before it: that one would be found, so that it would be static and
there twice. -/
theorem of_found (hnodup : ((ms.filter MethodDecl.isMain).map MethodDecl.sub).Nodup)
    (hfound : ∀ m ∈ ms, m.isMain = true →
      ∃ m', (ms.find? fun m' => m'.sub = m.sub) = some m' ∧ m'.isStatic = true) :
    MainsAreFirst ms := by
  induction ms with
  | nil => exact .nil
  | cons m ms ih =>
    have hfirst : ∀ m' ∈ ms, m'.isMain = true → m.sub ≠ m'.sub := by
      intro m' hm' hmain hsub
      obtain ⟨found, hfind, hstatic⟩ := hfound m' (List.mem_cons_of_mem m hm') hmain
      rw [List.find?_cons_of_pos (by simpa using hsub)] at hfind
      obtain rfl : m = found := Option.some.inj hfind
      rw [List.filter_cons_of_pos (MethodDecl.isMain_of_sub_eq hstatic hsub hmain), List.map_cons,
        List.nodup_cons] at hnodup
      exact hnodup.1 (hsub ▸ List.mem_map_of_mem (List.mem_filter.2 ⟨hm', hmain⟩))
    refine .cons hfirst (ih ?_ fun m' hm' hmain => ?_)
    · refine hnodup.sublist (List.Sublist.map _ (List.Sublist.filter _ ?_))
      exact List.sublist_cons_self m ms
    · have hfind := hfound m' (List.mem_cons_of_mem m hm') hmain
      rwa [List.find?_cons_of_neg (by simpa using hfirst m' hm' hmain)] at hfind

end MainsAreFirst

/-! ## Main methods of a program -/

namespace Program

variable {p : Program} {c : ClassDecl} {e : Signature}

/-- The classes whose main methods are listed. -/
def mainClasses (p : Program) : List ClassDecl :=
  p.applicationClasses.filter fun c => !c.isInterface

/-- The main methods of a class as signatures, in the order of declaration. -/
def mainsOf (c : ClassDecl) : List Signature :=
  (c.methods.filter MethodDecl.isMain).map fun m => ⟨c.name, m.sub⟩

/-- No main method of a class that may have some comes after another declaration of its
sub-signature. -/
def MainsFirst (p : Program) : Prop := ∀ c ∈ p.mainClasses, MainsAreFirst c.methods

theorem mainMethods_eq (p : Program) :
    p.mainMethods =
      (p.mainClasses.flatMap mainsOf).mergeSort fun a b => (compare a b).isLE := rfl

theorem mem_mainMethods :
    e ∈ p.mainMethods ↔
      ∃ c ∈ p.mainClasses, ∃ m ∈ c.methods, m.isMain = true ∧ e = ⟨c.name, m.sub⟩ := by
  rw [mainMethods_eq, List.mem_mergeSort, List.mem_flatMap]
  simp only [mainsOf, List.mem_map, List.mem_filter, and_assoc, eq_comm]

theorem pairwise_mainMethods (p : Program) :
    p.mainMethods.Pairwise fun a b => (compare a b).isLE = true :=
  pairwise_mergeSort_key id _

theorem method?_of_mem_mainClasses (hc : c ∈ p.mainClasses) (sub : SubSignature) :
    p.method? ⟨c.name, sub⟩ = c.method? sub := by
  rw [method?, class?_of_mem_applicationClasses (List.mem_filter.1 hc).1, Option.bind_some]

theorem nodup_mainMethods_iff :
    p.mainMethods.Nodup ↔
      ∀ c ∈ p.mainClasses, ((c.methods.filter MethodDecl.isMain).map MethodDecl.sub).Nodup := by
  have hnames : p.mainClasses.Pairwise (Function.onFun List.Disjoint mainsOf) := by
    refine (p.increasing_applicationClasses.filter _).imp fun {c c'} hlt e he he' => ?_
    obtain ⟨m, -, rfl⟩ := List.mem_map.1 he
    obtain ⟨m', -, heq⟩ := List.mem_map.1 he'
    rw [(Signature.mk.inj heq).1] at hlt
    simp at hlt
  have hclass : ∀ c : ClassDecl, (mainsOf c).Nodup ↔
      ((c.methods.filter MethodDecl.isMain).map MethodDecl.sub).Nodup := by
    intro c
    have hmap : mainsOf c = ((c.methods.filter MethodDecl.isMain).map MethodDecl.sub).map
        (Signature.mk c.name) := by
      rw [List.map_map]
      rfl
    rw [hmap]
    exact List.nodup_map_iff fun _ _ heq => (Signature.mk.inj heq).2
  rw [mainMethods_eq, (List.mergeSort_perm _ _).nodup_iff, List.nodup_flatMap,
    and_iff_left hnames]
  simp only [hclass]

theorem mainClasses_withoutRepeats (p : Program) :
    p.withoutRepeats.mainClasses = p.mainClasses.map ClassDecl.withoutRepeats := by
  unfold mainClasses applicationClasses withoutRepeats mapClasses
  simp only [List.filter_map, List.map_map]
  rfl

theorem mainsFirst_withoutRepeats (p : Program) : p.withoutRepeats.MainsFirst := by
  intro c hc
  rw [mainClasses_withoutRepeats] at hc
  obtain ⟨c, -, rfl⟩ := List.mem_map.1 hc
  exact mainsAreFirst_firstMethods c.methods

namespace MainsFirst

theorem mainMethods_withoutRepeats (h : p.MainsFirst) :
    p.withoutRepeats.mainMethods = p.mainMethods := by
  have hmains : (p.mainClasses.map ClassDecl.withoutRepeats).flatMap mainsOf =
      p.mainClasses.flatMap mainsOf := by
    rw [List.flatMap_map]
    refine List.flatMap_congr fun c hc => ?_
    exact congrArg (List.map _) (h c hc).filter_firstMethods
  rw [mainMethods_eq, mainMethods_eq, mainClasses_withoutRepeats, hmains]

end MainsFirst

/-- Every main method is listed once and is found as a static method if and only if none comes
after another declaration of its sub-signature. -/
theorem mainMethods_found_iff :
    (p.mainMethods.Nodup ∧
      ∀ e ∈ p.mainMethods, ∃ m, p.method? e = some m ∧ m.isStatic = true) ↔ p.MainsFirst := by
  rw [nodup_mainMethods_iff]
  constructor
  · intro ⟨hnodup, hfound⟩ c hc
    refine .of_found (hnodup c hc) fun m hm hmain => ?_
    have hentry : ⟨c.name, m.sub⟩ ∈ p.mainMethods := mem_mainMethods.2 ⟨c, hc, m, hm, hmain, rfl⟩
    have hmethod := hfound _ hentry
    rwa [method?_of_mem_mainClasses hc] at hmethod
  · intro h
    refine ⟨fun c hc => (h c hc).nodup_subs, fun e he => ?_⟩
    obtain ⟨c, hc, m, hm, hmain, rfl⟩ := mem_mainMethods.1 he
    refine ⟨m, ?_, (Bool.and_eq_true_iff.1 hmain).1⟩
    rw [method?_of_mem_mainClasses hc]
    exact (h c hc).find?_eq_some hm hmain

/-- The list of the main methods is that of the first declarations if and only if no main method
comes after another declaration of its sub-signature. -/
theorem mainMethods_withoutRepeats_iff :
    p.withoutRepeats.mainMethods = p.mainMethods ↔ p.MainsFirst := by
  refine ⟨fun heq => ?_, fun h => h.mainMethods_withoutRepeats⟩
  -- what holds of the list of the first declarations holds of the list of all
  have hfound := mainMethods_found_iff.2 p.mainsFirst_withoutRepeats
  simp only [heq, method?_withoutRepeats] at hfound
  exact mainMethods_found_iff.1 hfound

/-- If every main method is found as a static one, the first declarations have the same main
methods, though a list may repeat them. -/
theorem mem_mainMethods_withoutRepeats
    (hfound : ∀ e ∈ p.mainMethods, ∃ m, p.method? e = some m ∧ m.isStatic = true) :
    e ∈ p.withoutRepeats.mainMethods ↔ e ∈ p.mainMethods := by
  constructor
  · intro he
    obtain ⟨c', hc', m, hm, hmain, rfl⟩ := mem_mainMethods.1 he
    rw [mainClasses_withoutRepeats] at hc'
    obtain ⟨c, hc, rfl⟩ := List.mem_map.1 hc'
    exact mem_mainMethods.2 ⟨c, hc, m, mem_of_mem_firstMethods hm, hmain, rfl⟩
  · intro he
    obtain ⟨m', hm', hstatic⟩ := hfound e he
    obtain ⟨c, hc, m, hm, hmain, rfl⟩ := mem_mainMethods.1 he
    rw [method?_of_mem_mainClasses hc, ← c.method?_withoutRepeats] at hm'
    have hsub : m'.sub = m.sub := ClassDecl.sub_of_method? hm'
    have hc' : c.withoutRepeats ∈ p.withoutRepeats.mainClasses :=
      mainClasses_withoutRepeats p ▸ List.mem_map_of_mem hc
    refine mem_mainMethods.2 ⟨c.withoutRepeats, hc', m', ClassDecl.mem_methods_of_method? hm',
      MethodDecl.isMain_of_sub_eq hstatic hsub hmain, ?_⟩
    rw [hsub]
    rfl

/-- From their main methods the first declarations make the same constructions if and only if every
main method is found as a static one. Without visits a construction has the main methods as nodes,
and those of the first declarations are found. -/
theorem construct_mainMethods_iff :
    (∀ limit,
      p.withoutRepeats.construct p.withoutRepeats.hierarchy p.withoutRepeats.mainMethods limit =
        p.construct p.hierarchy p.mainMethods limit) ↔
      ∀ e ∈ p.mainMethods, ∃ m, p.method? e = some m ∧ m.isStatic = true := by
  constructor
  · intro hsame e he
    have hnode : e ∈ (p.construct p.hierarchy p.mainMethods (some 0)).graph.nodes :=
      mem_nodes_construct_zero.2 he
    rw [← hsame, mem_nodes_construct_zero] at hnode
    have hfound := (mainMethods_found_iff.2 p.mainsFirst_withoutRepeats).2 e hnode
    rwa [method?_withoutRepeats] at hfound
  · intro hfound limit
    rw [construct_withoutRepeats]
    exact construct_eq_of_sorted (pairwise_mainMethods _) (pairwise_mainMethods p)
      (fun _ => mem_mainMethods_withoutRepeats hfound) limit

/-- **The first declaration of a method wins in every lookup, but not among the main methods.** With
the first declarations alone every lookup finds the same method, and from the same entry points
every run makes the same construction and reports the same, under every limit. The list of the main
methods is the same if and only if no main method of the application comes after another declaration
of its sub-signature, and this is so if and only if each of them is listed once and found as a
static method. The constructions from the main methods are the same under every limit if and only if
each is found as a static method. -/
theorem first_method_wins_iff (p : Program) :
    (∀ s, p.withoutRepeats.method? s = p.method? s) ∧
    (∀ entries limit,
      p.withoutRepeats.construct p.withoutRepeats.hierarchy entries limit =
        p.construct p.hierarchy entries limit ∧
      (p.withoutRepeats.run p.withoutRepeats.hierarchy entries limit).diagnostics =
        (p.run p.hierarchy entries limit).diagnostics) ∧
    (p.withoutRepeats.mainMethods = p.mainMethods ↔ p.MainsFirst) ∧
    ((p.mainMethods.Nodup ∧
      ∀ e ∈ p.mainMethods, ∃ m, p.method? e = some m ∧ m.isStatic = true) ↔ p.MainsFirst) ∧
    ((∀ limit,
      p.withoutRepeats.construct p.withoutRepeats.hierarchy p.withoutRepeats.mainMethods limit =
        p.construct p.hierarchy p.mainMethods limit) ↔
      ∀ e ∈ p.mainMethods, ∃ m, p.method? e = some m ∧ m.isStatic = true) := by
  refine ⟨p.method?_withoutRepeats, fun entries limit => ?_, mainMethods_withoutRepeats_iff,
    mainMethods_found_iff, construct_mainMethods_iff⟩
  exact ⟨p.construct_withoutRepeats entries limit, by rw [run_withoutRepeats]⟩

/-- The sub-signature of main methods. -/
def mainSub : SubSignature := ⟨mainName, "([Ljava/lang/String;)V"⟩

/-- A class with a static main method that is declared after one that is not static, and a class
with two static ones. -/
def repeatedMains : Program :=
  (empty.addClasses .application [
    ⟨"App", none, [], false, [
      ⟨mainSub, false, some []⟩,
      ⟨mainSub, true, some [.invoke ⟨⟨"App", "work", "()V"⟩, .static⟩]⟩,
      ⟨⟨"work", "()V"⟩, true, some []⟩]⟩,
    ⟨"Twin", none, [], false, [⟨mainSub, true, some []⟩, ⟨mainSub, true, none⟩]⟩]).1

theorem mainMethods_repeatedMains :
    repeatedMains.mainMethods = [⟨"App", mainSub⟩, ⟨"Twin", mainSub⟩, ⟨"Twin", mainSub⟩] ∧
      repeatedMains.withoutRepeats.mainMethods = [⟨"Twin", mainSub⟩] := by
  have hall : repeatedMains.mainClasses.flatMap mainsOf =
      [⟨"App", mainSub⟩, ⟨"Twin", mainSub⟩, ⟨"Twin", mainSub⟩] := by decide +kernel
  have hfirst : repeatedMains.withoutRepeats.mainClasses.flatMap mainsOf =
      [⟨"Twin", mainSub⟩] := by decide +kernel
  rw [mainMethods_eq, mainMethods_eq, hall, hfirst]
  exact ⟨List.mergeSort_of_pairwise (by decide), List.mergeSort_of_pairwise (by decide)⟩

/-- The main methods are not those of the first declarations: one is listed though the method that
its signature stands for is not static, and one is listed twice. A construction from them begins at
the method that is not static and does not reach what the static one calls. -/
theorem later_main_listed :
    repeatedMains.withoutRepeats.mainMethods ≠ repeatedMains.mainMethods ∧
    ¬ repeatedMains.mainMethods.Nodup ∧
    ⟨"App", mainSub⟩ ∈ repeatedMains.mainMethods ∧
    (repeatedMains.method? ⟨"App", mainSub⟩).map MethodDecl.isStatic = some false ∧
    ⟨"App", mainSub⟩ ∈ (repeatedMains.construct repeatedMains.hierarchy repeatedMains.mainMethods
      none).graph.nodes ∧
    ⟨"App", mainSub⟩ ∉ (repeatedMains.withoutRepeats.construct
      repeatedMains.withoutRepeats.hierarchy repeatedMains.withoutRepeats.mainMethods
      none).graph.nodes ∧
    ⟨"App", "work", "()V"⟩ ∉ (repeatedMains.construct repeatedMains.hierarchy
      repeatedMains.mainMethods none).graph.nodes := by
  obtain ⟨hall, hfirst⟩ := mainMethods_repeatedMains
  rw [hall, hfirst]
  refine ⟨by decide, by decide, by decide, by decide, ?_, fun hmem => ?_, fun hmem => ?_⟩
  · exact mem_nodes_construct.2 (mem_discovered_run.2 (.inl List.mem_cons_self))
  · exact absurd (mem_entries_of_not_named (by decide) hmem) (by decide)
  · -- among the first declarations no method calls anything
    rw [← construct_withoutRepeats] at hmem
    exact absurd (mem_entries_of_not_named (by decide) hmem) (by decide)

end Program

end DispatchGraph
