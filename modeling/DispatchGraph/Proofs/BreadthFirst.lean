import DispatchGraph.Proofs.Budget
import Mathlib.Data.ENat.Lattice

/-!
# Visits in order of distance

The distance of a point is the number of steps on a shortest path to it from a root
(`distanceFrom`). A breadth-first search visits points in order of their distances, under every
budget (`Space.pairwise_visited_explore`). What carries this through a search is that the queue is
in that order and that no point that was not met is nearer than a point of the queue
(`Space.Layered`): a visit appends to the queue what is one step further than the visited point, and
by then everything nearer has been met.

So a run that a limit cut short has covered all that is nearer to the entry points than any method
it visited (`Program.run_coversByDistance`).
-/

namespace DispatchGraph

open Std (TransOrd LawfulEqOrd)

/-! ## Distances -/

section

variable {α : Type}

/-- A path of `n` steps leads from a root to a point. -/
inductive PathFrom (R : α → α → Prop) (roots : List α) : ℕ → α → Prop
  | root {r : α} (hroot : r ∈ roots) : PathFrom R roots 0 r
  | step {n : ℕ} {a b : α} (hpath : PathFrom R roots n a) (hstep : R a b) :
    PathFrom R roots (n + 1) b

/-- The length of a shortest path from a root to a point; infinite if there is no path. -/
noncomputable def distanceFrom (R : α → α → Prop) (roots : List α) (a : α) : ℕ∞ :=
  ⨅ n : { n // PathFrom R roots n a }, (n.1 : ℕ∞)

variable {R T : α → α → Prop} {roots : List α} {a b : α} {n : ℕ}

theorem exists_path_iff :
    (∃ n, PathFrom R roots n a) ↔ ∃ r ∈ roots, Relation.ReflTransGen R r a := by
  constructor
  · rintro ⟨n, hpath⟩
    induction hpath with
    | root hroot => exact ⟨_, hroot, .refl⟩
    | step _ hstep ih =>
      obtain ⟨r, hroot, hreach⟩ := ih
      exact ⟨r, hroot, hreach.tail hstep⟩
  · rintro ⟨r, hroot, hreach⟩
    induction hreach with
    | refl => exact ⟨0, .root hroot⟩
    | tail _ hstep ih =>
      obtain ⟨n, hpath⟩ := ih
      exact ⟨n + 1, hpath.step hstep⟩

theorem distanceFrom_le (hpath : PathFrom R roots n a) : distanceFrom R roots a ≤ n :=
  iInf_le (fun n : { n // PathFrom R roots n a } => (n.1 : ℕ∞)) ⟨n, hpath⟩

theorem distanceFrom_ne_top_iff :
    distanceFrom R roots a ≠ ⊤ ↔ ∃ n, PathFrom R roots n a := by
  rw [distanceFrom, ENat.iInf_natCast_ne_top, nonempty_subtype]

theorem exists_path_of_ne_top (hfinite : distanceFrom R roots a ≠ ⊤) :
    ∃ n, PathFrom R roots n a ∧ distanceFrom R roots a = n := by
  have hnonempty : Nonempty { n // PathFrom R roots n a } :=
    nonempty_subtype.2 (distanceFrom_ne_top_iff.1 hfinite)
  obtain ⟨⟨n, hpath⟩, hn⟩ :=
    ENat.exists_eq_iInf fun n : { n // PathFrom R roots n a } => (n.1 : ℕ∞)
  exact ⟨n, hpath, hn.symm⟩

theorem distanceFrom_root (hroot : a ∈ roots) : distanceFrom R roots a = 0 :=
  nonpos_iff_eq_zero.1 (distanceFrom_le (.root hroot))

theorem distanceFrom_le_succ (hstep : R a b) :
    distanceFrom R roots b ≤ distanceFrom R roots a + 1 := by
  by_cases hfinite : distanceFrom R roots a = ⊤
  · simp [hfinite]
  · obtain ⟨n, hpath, hn⟩ := exists_path_of_ne_top hfinite
    rw [hn]
    exact_mod_cast distanceFrom_le (hpath.step hstep)

/-- A shortest path passes a point that is one step nearer. -/
theorem exists_nearer (hfinite : distanceFrom R roots b ≠ ⊤) (hroot : b ∉ roots) :
    ∃ a, R a b ∧ distanceFrom R roots a + 1 = distanceFrom R roots b ∧
      distanceFrom R roots a < distanceFrom R roots b := by
  obtain ⟨n, hpath, hn⟩ := exists_path_of_ne_top hfinite
  cases hpath with
  | root hb => exact absurd hb hroot
  | @step n a _ hpath hstep =>
    have ha : distanceFrom R roots a ≤ n := distanceFrom_le hpath
    have hb : distanceFrom R roots b = (n : ℕ∞) + 1 := by rw [hn, Nat.cast_add, Nat.cast_one]
    refine ⟨a, hstep, le_antisymm ?_ (distanceFrom_le_succ hstep), ?_⟩
    · rw [hb]
      gcongr
    · rw [hn]
      exact lt_of_le_of_lt ha (by exact_mod_cast Nat.lt_succ_self n)

theorem PathFrom.imp (hpath : PathFrom R roots n a)
    (himp : ∀ n a b, PathFrom R roots n a → R a b → T a b) : PathFrom T roots n a := by
  induction hpath with
  | root hroot => exact .root hroot
  | step hpath hstep ih => exact ih.step (himp _ _ _ hpath hstep)

/-- Distances only depend on the steps from points that paths reach. -/
theorem distanceFrom_congr (hsteps : ∀ n a b, PathFrom R roots n a → R a b → T a b)
    (hsteps' : ∀ a b, T a b → R a b) : distanceFrom R roots a = distanceFrom T roots a := by
  have hpaths : PathFrom R roots = PathFrom T roots := by
    funext n b
    refine propext ⟨fun hpath => hpath.imp hsteps, fun hpath => hpath.imp ?_⟩
    exact fun _ a b _ => hsteps' a b
  rw [distanceFrom, distanceFrom, hpaths]

end

/-! ## The order of the visits -/

variable {α β : Type} [Ord α] [TransOrd α] [LawfulEqOrd α] [DecidableEq α]

/-- Points that are met join the queue at its end. -/
theorem Frontier.exists_queue_discoverAll (f : Frontier α) (xs : List α) :
    ∃ new, (f.discoverAll xs).queue = f.queue ++ new ∧ ∀ b ∈ new, b ∈ xs ∧ b ∉ f.seen := by
  induction xs generalizing f with
  | nil => exact ⟨[], by simp [discoverAll], by simp⟩
  | cons a xs ih =>
    obtain ⟨new, hqueue, hnew⟩ := ih (f.discover a)
    have hlater : ∀ b ∈ new, b ∈ a :: xs ∧ b ∉ f.seen := by
      intro b hb
      obtain ⟨hxs, hunmet⟩ := hnew b hb
      exact ⟨List.mem_cons_of_mem a hxs, fun hseen => hunmet (mem_seen_discover.2 (.inr hseen))⟩
    rw [discoverAll_cons, hqueue, discover]
    split
    · exact ⟨new, rfl, hlater⟩
    · rename_i ha
      refine ⟨a :: new, by simp, fun b hb => ?_⟩
      rcases List.mem_cons.1 hb with rfl | hb
      · exact ⟨List.mem_cons_self, ha⟩
      · exact hlater b hb

namespace Space

/-- The distance of a point from the roots of a search. -/
noncomputable def distance (S : Space α β) (roots : List α) (a : α) : ℕ∞ :=
  distanceFrom S.Leads roots a

/-- The frontier of a search that has come to points in order of their distances. -/
structure Layered (S : Space α β) (roots : List α) (f : Frontier α) : Prop where
  /-- The queue is in order of the distances. -/
  ordered : f.queue.Pairwise fun a b => S.distance roots a ≤ S.distance roots b
  /-- What was not met is no nearer than what waits. -/
  beyond : ∀ a ∈ f.queue, ∀ b ∉ f.seen, S.distance roots a ≤ S.distance roots b
  /-- The roots were met. -/
  roots_seen : ∀ r ∈ roots, r ∈ f.seen
  /-- What was met and does not wait was visited, and what it leads to was met. -/
  closed : ∀ a ∈ f.seen, a ∉ f.queue → ∀ b, S.Leads a b → b ∈ f.seen

variable {S : Space α β} {roots : List α} {budget : Option Nat} {f : Frontier α} {a b : α}
  {rest : List α}

variable (S) in
theorem exists_queue_advance (f : Frontier α) (a : α) (rest : List α) :
    ∃ new, (S.advance f a rest).queue = rest ++ new ∧ ∀ b ∈ new, S.Leads a b ∧ b ∉ f.seen :=
  Frontier.exists_queue_discoverAll ⟨f.seen, rest⟩ _

theorem layered_roots : S.Layered roots (Frontier.empty.discoverAll roots) where
  ordered := by
    refine List.pairwise_of_forall_mem_list fun a ha b _ => ?_
    rw [distance, distanceFrom_root (Frontier.mem_queue_roots.1 ha)]
    exact zero_le
  beyond a ha b _ := by
    rw [distance, distanceFrom_root (Frontier.mem_queue_roots.1 ha)]
    exact zero_le
  roots_seen r hr := Frontier.mem_seen_roots.2 hr
  closed a ha hqueue :=
    absurd (Frontier.mem_queue_roots.2 (Frontier.mem_seen_roots.1 ha)) hqueue

omit [TransOrd α] [LawfulEqOrd α] in
/-- What was not met is further than the first point of the queue: a shortest path to it passes a
point that is one step nearer, and that one either waits or was not met itself. -/
theorem Layered.succ_le_of_not_seen (h : S.Layered roots f) (hq : f.queue = a :: rest)
    (hb : b ∉ f.seen) : S.distance roots a + 1 ≤ S.distance roots b := by
  by_cases hfinite : S.distance roots b = ⊤
  · simp [hfinite]
  obtain ⟨c, hleads, hc, -⟩ := exists_nearer hfinite fun hroot => hb (h.roots_seen b hroot)
  have hle : S.distance roots a ≤ S.distance roots c := by
    by_cases hseen : c ∈ f.seen
    · have hwaits : c ∈ f.queue := by
        by_contra hvisited
        exact hb (h.closed c hseen hvisited b hleads)
      rcases List.mem_cons.1 (hq ▸ hwaits) with rfl | hrest
      · exact le_rfl
      · exact (List.pairwise_cons.1 (hq ▸ h.ordered)).1 c hrest
    · exact h.beyond a (by simp [hq]) c hseen
  calc S.distance roots a + 1 ≤ S.distance roots c + 1 := by gcongr
    _ = S.distance roots b := hc

/-- One visit keeps the order: what joins the queue is one step further than the visited point. -/
theorem Layered.advance (h : S.Layered roots f) (hq : f.queue = a :: rest) :
    S.Layered roots (S.advance f a rest) where
  ordered := by
    obtain ⟨new, hqueue, hnew⟩ := S.exists_queue_advance f a rest
    have hrest : rest.Pairwise fun b c => S.distance roots b ≤ S.distance roots c :=
      (List.pairwise_cons.1 (hq ▸ h.ordered)).2
    rw [hqueue, List.pairwise_append]
    -- new points are all one step from `a`, and no nearer than those that waited before them
    refine ⟨hrest, List.pairwise_of_forall_mem_list fun b hb c hc => ?_, fun b hb c hc => ?_⟩
    · calc S.distance roots b ≤ S.distance roots a + 1 := distanceFrom_le_succ (hnew b hb).1
        _ ≤ S.distance roots c := h.succ_le_of_not_seen hq (hnew c hc).2
    · exact h.beyond b (by simp [hq, hb]) c (hnew c hc).2
  beyond b hb c hc := by
    rw [mem_seen_advance, not_or] at hc
    rcases mem_queue_advance.1 hb with hrest | ⟨hleads, -⟩
    · exact h.beyond b (by simp [hq, hrest]) c hc.1
    · calc S.distance roots b ≤ S.distance roots a + 1 := distanceFrom_le_succ hleads
        _ ≤ S.distance roots c := h.succ_le_of_not_seen hq hc.1
  roots_seen r hr := mem_seen_advance.2 (.inl (h.roots_seen r hr))
  closed b hb hqueue c hleads := by
    rw [mem_queue_advance, not_or, not_and_not_right] at hqueue
    rw [mem_seen_advance] at hb ⊢
    -- `b` was met before, as a new point would wait
    have hseen : b ∈ f.seen := hb.elim id hqueue.2
    by_cases hba : b = a
    · exact .inr (hba ▸ hleads)
    · exact .inl (h.closed b hseen (by simp [hq, hba, hqueue.1]) c hleads)

theorem pairwise_visited_exploreFrom (h : S.Layered roots f) :
    (S.exploreFrom budget f).visited.Pairwise fun a b =>
      S.distance roots a ≤ S.distance roots b := by
  induction budget, f using exploreFrom_induction S with
  | nil budget f hq => simp [exploreFrom_nil hq, Outcome.visited]
  | spent f a rest hq => simp [exploreFrom_spent, Outcome.visited]
  | visit budget f a rest hq hb ih =>
    rw [exploreFrom_visit hq hb, Outcome.visited_cons, List.pairwise_cons]
    refine ⟨fun b hvisited => ?_, ih (h.advance hq)⟩
    -- a later visit is to a point that waits now or was not met yet
    have hunmet : ∀ c ∉ f.seen, S.distance roots a ≤ S.distance roots c :=
      h.beyond a (by simp [hq])
    have hdiscovered : b ∈ (S.exploreFrom (budget.map (· - 1)) (S.advance f a rest)).discovered :=
      List.mem_append_left _ hvisited
    rcases mem_discovered_exploreFrom.1 hdiscovered with hqueue | ⟨hnew, -⟩
    · rcases mem_queue_advance.1 hqueue with hrest | ⟨-, hnew⟩
      · exact (List.pairwise_cons.1 (hq ▸ h.ordered)).1 b hrest
      · exact hunmet b hnew
    · exact hunmet b fun hseen => hnew (mem_seen_advance.2 (.inl hseen))

/-- **A search visits points in order of their distances**, under every budget. -/
theorem pairwise_visited_explore :
    (S.explore budget roots).visited.Pairwise fun a b =>
      S.distance roots a ≤ S.distance roots b :=
  pairwise_visited_exploreFrom layered_roots

/-! ## What a search has covered -/

theorem isPrefix_visited_explore :
    (S.explore budget roots).visited <+: (S.explore none roots).visited := by
  cases budget with
  | none => exact List.prefix_rfl
  | some n =>
    rw [visited_explore_some]
    exact List.take_prefix n _

/-- The points at a finite distance are those that a search without budget visits. -/
theorem distance_ne_top_iff : S.distance roots a ≠ ⊤ ↔ a ∈ (S.explore none roots).visited := by
  rw [distance, distanceFrom_ne_top_iff, exists_path_iff, mem_visited_explore]

/-- A search has visited what is nearer than a point that it visited. -/
theorem mem_visited_of_distance_lt (hb : b ∈ (S.explore budget roots).visited)
    (hlt : S.distance roots a < S.distance roots b) : a ∈ (S.explore budget roots).visited := by
  have ha : a ∈ (S.explore none roots).visited := distance_ne_top_iff.1 hlt.ne_top
  have hordered : (S.explore none roots).visited.Pairwise fun c d =>
      S.distance roots c ≤ S.distance roots d := pairwise_visited_explore
  obtain ⟨later, hlater⟩ : (S.explore budget roots).visited <+: (S.explore none roots).visited :=
    isPrefix_visited_explore
  rw [← hlater] at ha hordered
  rcases List.mem_append.1 ha with ha | ha
  · exact ha
  · exact absurd ((List.pairwise_append.1 hordered).2.2 b hb a ha) hlt.not_ge

/-- A search has met what is no further than a point that it visited. -/
theorem mem_discovered_of_distance_le (hb : b ∈ (S.explore budget roots).visited)
    (hle : S.distance roots a ≤ S.distance roots b) :
    a ∈ (S.explore budget roots).discovered := by
  have hfinite : S.distance roots b ≠ ⊤ :=
    distance_ne_top_iff.2 (isPrefix_visited_explore.subset hb)
  by_cases hroot : a ∈ roots
  · exact mem_discovered_explore.2 (.inl hroot)
  · obtain ⟨c, hleads, -, hnearer⟩ := exists_nearer (ne_top_of_le_ne_top hfinite hle) hroot
    have hlt : S.distance roots c < S.distance roots b := lt_of_lt_of_le hnearer hle
    exact mem_discovered_explore.2 (.inr ⟨c, mem_visited_of_distance_lt hb hlt, hleads⟩)

end Space

/-! ## What a run has covered -/

/-- The number of calls on a shortest way to a method from an entry point; infinite if there is no
way. -/
noncomputable def CallGraph.distance (g : CallGraph) (entries : List Signature)
    (method : Signature) : ℕ∞ :=
  distanceFrom g.Calls entries method

/-- How far a run from the entry points has come that visited the methods `visited` in that order
and made the construction `part`, where a run without a limit makes the construction `whole`. -/
structure Construction.CoversByDistance (part whole : Construction)
    (visited entries : List Signature) : Prop where
  /-- The methods of the whole graph are those at a finite distance. -/
  finite_iff : ∀ method, whole.graph.distance entries method ≠ ⊤ ↔ method ∈ whole.graph.nodes
  /-- The visited methods are among them. -/
  visited_mem : ∀ method ∈ visited, method ∈ whole.graph.nodes
  /-- Methods are visited in order of their distances. -/
  ordered : visited.Pairwise fun a b =>
    whole.graph.distance entries a ≤ whole.graph.distance entries b
  /-- What is nearer than a visited method is visited and has all its edges. -/
  nearer_visited : ∀ method ∈ visited, ∀ other,
    whole.graph.distance entries other < whole.graph.distance entries method →
      other ∈ visited ∧ part.graph.callees other = whole.graph.callees other
  /-- What is as near as a visited method is there. -/
  as_near_met : ∀ method ∈ visited, ∀ other,
    whole.graph.distance entries other ≤ whole.graph.distance entries method →
      other ∈ part.graph.nodes

namespace Program

variable {p : Program} {h : Hierarchy} {entries : List Signature} {limit : Option Nat}
  {method : Signature}

theorem isPrefix_visited_run :
    (p.run h entries limit).visited <+: (p.run h entries none).visited :=
  Space.isPrefix_visited_explore

/-- Distances in the whole graph are distances along calls: no call of a method that the entry
points lead to is missing in it. -/
theorem distance_construct_none :
    (p.construct h entries none).graph.distance entries method =
      (p.callSpace h).distance entries method := by
  refine (distanceFrom_congr (fun n caller callee hpath hleads => ?_) fun caller callee hcalls =>
    leads_callSpace.2 (calls_construct.1 hcalls).2).symm
  have hvisited : caller ∈ (p.run h entries none).visited :=
    Space.mem_visited_explore.2 (exists_path_iff.1 ⟨n, hpath⟩)
  exact calls_construct.2 ⟨hvisited, leads_callSpace.1 hleads⟩

/-- **A run covers the call graph by distance from the entry points**, under every limit. It visits
methods in order of their distances; whatever is nearer than a method that it visited it has visited
too, with all its calls, and whatever is as near is a node of its graph. -/
theorem run_coversByDistance (p : Program) (h : Hierarchy) (entries : List Signature)
    (limit : Option Nat) :
    (p.construct h entries limit).CoversByDistance (p.construct h entries none)
      (p.run h entries limit).visited entries where
  finite_iff method := by
    rw [distance_construct_none, Space.distance_ne_top_iff, mem_nodes_construct,
      discovered_run_none]
    rfl
  visited_mem method hmethod := by
    rw [mem_nodes_construct, discovered_run_none]
    exact isPrefix_visited_run.subset hmethod
  ordered := by
    simp only [distance_construct_none]
    exact Space.pairwise_visited_explore
  nearer_visited method hmethod other hlt := by
    simp only [distance_construct_none] at hlt
    have hother : other ∈ (p.run h entries limit).visited :=
      Space.mem_visited_of_distance_lt hmethod hlt
    exact ⟨hother, callees_construct_eq hother (isPrefix_visited_run.subset hother)⟩
  as_near_met method hmethod other hle := by
    simp only [distance_construct_none] at hle
    exact mem_nodes_construct.2 (Space.mem_discovered_of_distance_le hmethod hle)

end Program

end DispatchGraph
