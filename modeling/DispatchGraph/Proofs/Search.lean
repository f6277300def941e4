import DispatchGraph.Search
import DispatchGraph.Proofs.Sorted
import Mathlib.Logic.Relation

/-!
# What a breadth-first search visits

The queue of a search holds points that were met and not visited, each once (`Frontier.Valid`), and
one visit appends to it what the visit leads to and was not met before (`mem_queue_discoverAll`).
From this step the facts about whole searches follow by induction along `exploreFrom`:

* a point is discovered when it is a root or a visited point leads to it, under every budget
  (`mem_discovered_explore`), and no point is discovered twice (`nodup_discovered_explore`);
* a search without budget leaves nothing pending and visits what the roots lead to
  (`mem_visited_explore`);
* a search with a budget of `n` makes the first `n` visits of the search without budget
  (`visits_explore_some`), and leaves nothing pending when these are all (`pending_explore_some`);
* a point is met before it is visited (`supported_explore`);
* a search depends on where visits lead and on nothing else that they find (`explore_congr`).
-/

namespace DispatchGraph

open Std

variable {α β : Type} [Ord α] [TransOrd α] [LawfulEqOrd α] [DecidableEq α]

/-! ## Meeting points -/

namespace Frontier

/-- The queue holds points that were met, each once. -/
structure Valid (f : Frontier α) : Prop where
  nodup : f.queue.Nodup
  seen_of_mem : ∀ a ∈ f.queue, a ∈ f.seen

theorem mem_seen_discover {f : Frontier α} {a b : α} :
    b ∈ (f.discover a).seen ↔ b = a ∨ b ∈ f.seen := by
  rw [discover]
  split
  · rename_i ha
    constructor
    · exact .inr
    · rintro (rfl | hb)
      · exact ha
      · exact hb
  · exact SortedSet.mem_insert

omit [LawfulEqOrd α] in
theorem mem_queue_discover {f : Frontier α} {a b : α} :
    b ∈ (f.discover a).queue ↔ b ∈ f.queue ∨ b = a ∧ b ∉ f.seen := by
  rw [discover]
  split
  · rename_i ha
    refine ⟨.inl, ?_⟩
    rintro (hb | ⟨rfl, hb⟩)
    · exact hb
    · exact absurd ha hb
  · rename_i ha
    rw [List.mem_append, List.mem_singleton]
    refine or_congr_right ⟨?_, And.left⟩
    rintro rfl
    exact ⟨rfl, ha⟩

omit [LawfulEqOrd α] in
theorem discoverAll_cons (f : Frontier α) (a : α) (xs : List α) :
    f.discoverAll (a :: xs) = (f.discover a).discoverAll xs := rfl

theorem mem_seen_discoverAll {f : Frontier α} {xs : List α} {b : α} :
    b ∈ (f.discoverAll xs).seen ↔ b ∈ f.seen ∨ b ∈ xs := by
  induction xs generalizing f with
  | nil => simp [discoverAll]
  | cons a xs ih =>
    rw [discoverAll_cons, ih, mem_seen_discover, List.mem_cons]
    tauto

/-- What joins the queue is what was not met before. -/
theorem mem_queue_discoverAll {f : Frontier α} {xs : List α} {b : α} :
    b ∈ (f.discoverAll xs).queue ↔ b ∈ f.queue ∨ b ∈ xs ∧ b ∉ f.seen := by
  induction xs generalizing f with
  | nil => simp [discoverAll]
  | cons a xs ih =>
    rw [discoverAll_cons, ih, mem_queue_discover, mem_seen_discover, List.mem_cons]
    tauto

theorem Valid.discover {f : Frontier α} (h : f.Valid) (a : α) : (f.discover a).Valid where
  nodup := by
    rw [Frontier.discover]
    split
    · exact h.nodup
    · rename_i ha
      refine h.nodup.append (List.nodup_singleton a) ?_
      rw [List.disjoint_singleton]
      exact fun hq => ha (h.seen_of_mem a hq)
  seen_of_mem b hb := by
    rw [mem_seen_discover]
    rcases mem_queue_discover.1 hb with hb | ⟨hb, _⟩
    · exact .inr (h.seen_of_mem b hb)
    · exact .inl hb

theorem Valid.discoverAll {f : Frontier α} (h : f.Valid) (xs : List α) :
    (f.discoverAll xs).Valid := by
  induction xs generalizing f with
  | nil => exact h
  | cons a xs ih => exact ih (h.discover a)

omit [TransOrd α] [LawfulEqOrd α] [DecidableEq α] in
theorem valid_empty : (empty : Frontier α).Valid := ⟨List.nodup_nil, by simp [empty]⟩

omit [TransOrd α] [LawfulEqOrd α] [DecidableEq α] in
/-- Taking the first point out of the queue. -/
theorem Valid.tail {f : Frontier α} (h : f.Valid) {a : α} {rest : List α}
    (hq : f.queue = a :: rest) : (⟨f.seen, rest⟩ : Frontier α).Valid where
  nodup := (List.nodup_cons.1 (hq ▸ h.nodup)).2
  seen_of_mem b hb := h.seen_of_mem b (hq ▸ List.mem_cons_of_mem a hb)

theorem mem_queue_roots {roots : List α} {a : α} :
    a ∈ (empty.discoverAll roots).queue ↔ a ∈ roots := by
  rw [mem_queue_discoverAll]
  simp [empty, Sorted.not_mem_empty]

theorem mem_seen_roots {roots : List α} {a : α} :
    a ∈ (empty.discoverAll roots).seen ↔ a ∈ roots := by
  rw [mem_seen_discoverAll]
  simp [empty, Sorted.not_mem_empty]

end Frontier

namespace Outcome

omit [Ord α] [TransOrd α] [LawfulEqOrd α] [DecidableEq α]

theorem visited_cons (a : α) (found : β) (visits : List (α × β)) (pending : List α) :
    visited ⟨(a, found) :: visits, pending⟩ = a :: visited ⟨visits, pending⟩ := rfl

theorem discovered_cons (a : α) (found : β) (visits : List (α × β)) (pending : List α) :
    discovered ⟨(a, found) :: visits, pending⟩ = a :: discovered ⟨visits, pending⟩ := rfl

end Outcome

/-! ## One visit -/

namespace Space

variable (S : Space α β)

/-- A visit to `a` leads to `b`. -/
def Leads (a b : α) : Prop := b ∈ S.next (S.visit a)

/-- The frontier after a visit to `a`, when `rest` was behind it in the queue. -/
def advance (f : Frontier α) (a : α) (rest : List α) : Frontier α :=
  Frontier.discoverAll ⟨f.seen, rest⟩ (S.next (S.visit a))

variable {S} {budget : Option Nat} {f : Frontier α} {a : α} {rest : List α}

theorem mem_seen_advance {b : α} :
    b ∈ (S.advance f a rest).seen ↔ b ∈ f.seen ∨ S.Leads a b :=
  Frontier.mem_seen_discoverAll

theorem mem_queue_advance {b : α} :
    b ∈ (S.advance f a rest).queue ↔ b ∈ rest ∨ S.Leads a b ∧ b ∉ f.seen :=
  Frontier.mem_queue_discoverAll

theorem valid_advance (h : f.Valid) (hq : f.queue = a :: rest) : (S.advance f a rest).Valid :=
  (h.tail hq).discoverAll _

theorem exploreFrom_nil (hq : f.queue = []) : S.exploreFrom budget f = ⟨[], []⟩ := by
  rw [exploreFrom]
  split
  · rfl
  · simp_all

theorem exploreFrom_spent : S.exploreFrom (some 0) f = ⟨[], f.queue⟩ := by
  rw [exploreFrom]
  split
  · simp_all
  · simp_all

theorem exploreFrom_visit (hq : f.queue = a :: rest) (hb : budget ≠ some 0) :
    S.exploreFrom budget f =
      ⟨(a, S.visit a) :: (S.exploreFrom (budget.map (· - 1)) (S.advance f a rest)).visits,
        (S.exploreFrom (budget.map (· - 1)) (S.advance f a rest)).pending⟩ := by
  rw [exploreFrom]
  split
  · simp_all
  · rename_i b rest' hq'
    obtain ⟨rfl, rfl⟩ := List.cons.inj (hq.symm.trans hq')
    rw [if_neg hb]
    rfl

/-- Induction along a search: it ends with the queue, or with the budget, or goes on after a
visit. -/
@[elab_as_elim]
theorem exploreFrom_induction (S : Space α β) {motive : Option Nat → Frontier α → Prop}
    (nil : ∀ budget f, f.queue = [] → motive budget f)
    (spent : ∀ f a rest, f.queue = a :: rest → motive (some 0) f)
    (visit : ∀ budget f a rest, f.queue = a :: rest → budget ≠ some 0 →
      motive (budget.map (· - 1)) (S.advance f a rest) → motive budget f)
    (budget : Option Nat) (f : Frontier α) : motive budget f :=
  exploreFrom.induct S motive nil spent visit budget f

/-! ## Searches from a frontier -/

theorem visit_of_mem_visits {b : α} {found : β}
    (h : (b, found) ∈ (S.exploreFrom budget f).visits) : found = S.visit b := by
  induction budget, f using exploreFrom_induction S with
  | nil budget f hq => simp [exploreFrom_nil hq] at h
  | spent f a rest hq => simp [exploreFrom_spent] at h
  | visit budget f a rest hq hb ih =>
    rw [exploreFrom_visit hq hb] at h
    rcases List.mem_cons.1 h with heq | h
    · obtain ⟨rfl, rfl⟩ := Prod.mk.inj heq
      rfl
    · exact ih h

theorem pending_exploreFrom_none : (S.exploreFrom none f).pending = [] := by
  generalize hbudget : (none : Option Nat) = budget
  induction budget, f using exploreFrom_induction S with
  | nil budget f hq => rw [exploreFrom_nil hq]
  | spent f a rest hq => contradiction
  | visit budget f a rest hq hb ih =>
    subst hbudget
    rw [exploreFrom_visit hq hb]
    exact ih rfl

/-- A budget cuts the visits short and changes nothing else. -/
theorem visits_exploreFrom_some (n : Nat) :
    (S.exploreFrom (some n) f).visits = (S.exploreFrom none f).visits.take n := by
  induction n generalizing f with
  | zero => rw [exploreFrom_spent, List.take_zero]
  | succ n ih =>
    cases hq : f.queue with
    | nil => simp [exploreFrom_nil hq]
    | cons a rest =>
      rw [exploreFrom_visit hq (by simp), exploreFrom_visit hq (by simp), List.take_succ_cons]
      exact congrArg _ ih

theorem pending_exploreFrom_some (n : Nat) :
    (S.exploreFrom (some n) f).pending = [] ↔ (S.exploreFrom none f).visits.length ≤ n := by
  induction n generalizing f with
  | zero =>
    rw [exploreFrom_spent]
    cases hq : f.queue with
    | nil => simp [exploreFrom_nil hq]
    | cons a rest => simp [exploreFrom_visit hq]
  | succ n ih =>
    cases hq : f.queue with
    | nil => simp [exploreFrom_nil hq]
    | cons a rest =>
      rw [exploreFrom_visit hq (by simp), exploreFrom_visit hq (by simp), List.length_cons,
        Nat.add_le_add_iff_right]
      exact ih

/-- What is discovered is the queue and every new point that a visited point leads to. -/
theorem mem_discovered_exploreFrom {b : α} :
    b ∈ (S.exploreFrom budget f).discovered ↔
      b ∈ f.queue ∨ b ∉ f.seen ∧ ∃ c ∈ (S.exploreFrom budget f).visited, S.Leads c b := by
  induction budget, f using exploreFrom_induction S with
  | nil budget f hq => simp [exploreFrom_nil hq, hq, Outcome.discovered, Outcome.visited]
  | spent f a rest hq => simp [exploreFrom_spent, Outcome.discovered, Outcome.visited]
  | visit budget f a rest hq hb ih =>
    rw [mem_queue_advance, mem_seen_advance] at ih
    rw [exploreFrom_visit hq hb, Outcome.discovered_cons, Outcome.visited_cons, hq]
    simp only [List.mem_cons, exists_eq_or_imp]
    rw [ih]
    -- a new point that the visit leads to joins the queue, and the later visits add no such point
    by_cases hseen : b ∈ f.seen
    · simp [hseen]
    · by_cases hleads : S.Leads a b
      · simp [hseen, hleads]
      · simp [hseen, hleads, or_assoc]

/-- No point is discovered twice. -/
theorem nodup_discovered_exploreFrom (h : f.Valid) :
    (S.exploreFrom budget f).discovered.Nodup := by
  induction budget, f using exploreFrom_induction S with
  | nil budget f hq => simp [exploreFrom_nil hq, Outcome.discovered, Outcome.visited]
  | spent f a rest hq =>
    simpa [exploreFrom_spent, Outcome.discovered, Outcome.visited] using h.nodup
  | visit budget f a rest hq hb ih =>
    have ha : a ∈ f.seen := h.seen_of_mem a (by simp [hq])
    have hrest : a ∉ rest := (List.nodup_cons.1 (hq ▸ h.nodup)).1
    rw [exploreFrom_visit hq hb, Outcome.discovered_cons, List.nodup_cons]
    refine ⟨fun hagain => ?_, ih (valid_advance h hq)⟩
    rcases mem_discovered_exploreFrom.1 hagain with hqueue | ⟨hnew, _⟩
    · rcases mem_queue_advance.1 hqueue with hmem | ⟨_, hnew⟩
      · exact hrest hmem
      · exact hnew ha
    · exact hnew (mem_seen_advance.2 (.inl ha))

/-- What holds in the queue and passes from a visited point to those it leads to holds wherever the
search comes. -/
theorem discovered_induction_from {motive : α → Prop} (hqueue : ∀ b ∈ f.queue, motive b)
    (hstep : ∀ b ∈ (S.exploreFrom budget f).visited, motive b → ∀ c, S.Leads b c → motive c) :
    ∀ b ∈ (S.exploreFrom budget f).discovered, motive b := by
  induction budget, f using exploreFrom_induction S with
  | nil budget f hq => simp [exploreFrom_nil hq, Outcome.discovered, Outcome.visited]
  | spent f a rest hq =>
    simpa [exploreFrom_spent, Outcome.discovered, Outcome.visited] using hqueue
  | visit budget f a rest hq hb ih =>
    rw [exploreFrom_visit hq hb] at hstep ⊢
    rw [Outcome.visited_cons] at hstep
    have ha : motive a := hqueue a (by simp [hq])
    have hqueue' : ∀ b ∈ (S.advance f a rest).queue, motive b := by
      intro b hmem
      rcases mem_queue_advance.1 hmem with hmem | ⟨hleads, _⟩
      · exact hqueue b (by simp [hq, hmem])
      · exact hstep a List.mem_cons_self ha b hleads
    intro b hmem
    rcases List.mem_cons.1 hmem with rfl | hmem
    · exact ha
    · exact ih hqueue' (fun c hc => hstep c (List.mem_cons_of_mem a hc)) b hmem

variable (S) in
/-- Every visited point was met before its visit: it satisfies `met`, or an earlier visit leads to
it. -/
def Supported (met : α → Prop) : List (α × β) → Prop
  | [] => True
  | (a, found) :: visits => met a ∧ Supported (fun b => met b ∨ b ∈ S.next found) visits

omit [Ord α] [TransOrd α] [LawfulEqOrd α] [DecidableEq α] in
theorem Supported.mono {met met' : α → Prop} {visits : List (α × β)} (hmet : ∀ a, met a → met' a)
    (h : S.Supported met visits) : S.Supported met' visits := by
  induction visits generalizing met met' with
  | nil => trivial
  | cons visit visits ih =>
    obtain ⟨ha, hrest⟩ := h
    exact ⟨hmet visit.1 ha, ih (fun b hb => hb.imp (hmet b) id) hrest⟩

theorem supported_exploreFrom {met : α → Prop} (h : ∀ a ∈ f.queue, met a) :
    S.Supported met (S.exploreFrom budget f).visits := by
  induction budget, f using exploreFrom_induction S generalizing met with
  | nil budget f hq => simp [exploreFrom_nil hq, Supported]
  | spent f a rest hq => simp [exploreFrom_spent, Supported]
  | visit budget f a rest hq hb ih =>
    rw [exploreFrom_visit hq hb]
    refine ⟨h a (by simp [hq]), ih fun b hmem => ?_⟩
    rcases mem_queue_advance.1 hmem with hmem | ⟨hleads, _⟩
    · exact .inl (h b (by simp [hq, hmem]))
    · exact .inr hleads

/-- A search only sees where visits lead. Two spaces in which the points that a search visits lead
to the same points in the same order are searched alike, whatever else the visits find. -/
theorem exploreFrom_congr {γ : Type} {T : Space α γ}
    (h : ∀ b ∈ (S.exploreFrom budget f).visited, S.next (S.visit b) = T.next (T.visit b)) :
    (S.exploreFrom budget f).visited = (T.exploreFrom budget f).visited ∧
      (S.exploreFrom budget f).pending = (T.exploreFrom budget f).pending := by
  induction budget, f using exploreFrom_induction S with
  | nil budget f hq => simp [exploreFrom_nil hq, Outcome.visited]
  | spent f a rest hq => simp [exploreFrom_spent, Outcome.visited]
  | visit budget f a rest hq hb ih =>
    rw [exploreFrom_visit hq hb, Outcome.visited_cons] at h
    obtain ⟨ha, hlater⟩ := List.forall_mem_cons.1 h
    have hadvance : S.advance f a rest = T.advance f a rest := by rw [advance, advance, ha]
    obtain ⟨hvisited, hpending⟩ := ih hlater
    rw [exploreFrom_visit hq hb, exploreFrom_visit hq hb, Outcome.visited_cons,
      Outcome.visited_cons, ← hadvance]
    exact ⟨congrArg _ hvisited, hpending⟩

/-! ## Searches from roots -/

variable {roots : List α}

theorem mem_discovered_explore {b : α} :
    b ∈ (S.explore budget roots).discovered ↔
      b ∈ roots ∨ ∃ c ∈ (S.explore budget roots).visited, S.Leads c b := by
  rw [explore, mem_discovered_exploreFrom, Frontier.mem_queue_roots, Frontier.mem_seen_roots]
  tauto

theorem nodup_discovered_explore : (S.explore budget roots).discovered.Nodup :=
  nodup_discovered_exploreFrom (Frontier.valid_empty.discoverAll roots)

theorem nodup_visited_explore : (S.explore budget roots).visited.Nodup :=
  (List.nodup_append.1 nodup_discovered_explore).1

theorem discovered_explore_none :
    (S.explore none roots).discovered = (S.explore none roots).visited := by
  rw [Outcome.discovered, explore, pending_exploreFrom_none, List.append_nil]

theorem visits_explore_some (n : Nat) :
    (S.explore (some n) roots).visits = (S.explore none roots).visits.take n :=
  visits_exploreFrom_some n

theorem visited_explore_some (n : Nat) :
    (S.explore (some n) roots).visited = (S.explore none roots).visited.take n := by
  rw [Outcome.visited, visits_explore_some, List.map_take]
  rfl

theorem pending_explore_some (n : Nat) :
    (S.explore (some n) roots).pending = [] ↔ (S.explore none roots).visits.length ≤ n :=
  pending_exploreFrom_some n

/-- A budget that allows every visit changes nothing. -/
theorem explore_some_of_length_le {n : Nat} (h : (S.explore none roots).visits.length ≤ n) :
    S.explore (some n) roots = S.explore none roots := by
  have hvisits : (S.explore (some n) roots).visits = (S.explore none roots).visits := by
    rw [visits_explore_some, List.take_of_length_le h]
  have hpending : (S.explore (some n) roots).pending = (S.explore none roots).pending := by
    rw [(pending_explore_some n).2 h, explore, pending_exploreFrom_none]
  cases hsome : S.explore (some n) roots
  cases hnone : S.explore none roots
  simp_all

theorem discovered_induction {motive : α → Prop} (hroots : ∀ r ∈ roots, motive r)
    (hstep : ∀ b ∈ (S.explore budget roots).visited, motive b → ∀ c, S.Leads b c → motive c) :
    ∀ b ∈ (S.explore budget roots).discovered, motive b :=
  discovered_induction_from (fun b hb => hroots b (Frontier.mem_queue_roots.1 hb)) hstep

theorem supported_explore {met : α → Prop} (h : ∀ r ∈ roots, met r) :
    S.Supported met (S.explore budget roots).visits :=
  supported_exploreFrom fun a ha => h a (Frontier.mem_queue_roots.1 ha)

theorem explore_congr {γ : Type} {T : Space α γ}
    (h : ∀ b ∈ (S.explore budget roots).visited, S.next (S.visit b) = T.next (T.visit b)) :
    (S.explore budget roots).visited = (T.explore budget roots).visited ∧
      (S.explore budget roots).pending = (T.explore budget roots).pending :=
  exploreFrom_congr h

/-- **A search without budget visits what the roots lead to.** -/
theorem mem_visited_explore {b : α} :
    b ∈ (S.explore none roots).visited ↔ ∃ r ∈ roots, Relation.ReflTransGen S.Leads r b := by
  rw [← discovered_explore_none]
  constructor
  · refine discovered_induction (motive := fun b => ∃ r ∈ roots, Relation.ReflTransGen S.Leads r b)
      (fun r hr => ⟨r, hr, .refl⟩) ?_ b
    rintro c _ ⟨r, hr, hpath⟩ d hleads
    exact ⟨r, hr, hpath.tail hleads⟩
  · rintro ⟨r, hr, hpath⟩
    induction hpath with
    | refl => exact mem_discovered_explore.2 (.inl hr)
    | tail _ hleads ih =>
      rw [discovered_explore_none] at ih
      exact mem_discovered_explore.2 (.inr ⟨_, ih, hleads⟩)

end Space

end DispatchGraph
