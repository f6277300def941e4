import DispatchGraph.Sorted

/-!
# Breadth-first search of a finite space

A `Space` says what a visit to a point finds and which points it leads to; every point a visit
leads to lies in a finite universe. `Space.explore` visits the roots and everything they lead to,
each point once, first in first out, and marks a point when it is first met. A budget bounds the
number of visits; what is still in the queue when it is spent is `pending`.

The search ends without a bound on its steps: a visit takes one point out of the queue, and every
point that enters the queue leaves the undiscovered part of the universe (`weight_discover_le`).
-/

namespace DispatchGraph

open Std

/-! ## Counting what is left of a finite list -/

/-- The number of elements of `points` that do not satisfy `seen`. -/
def remaining {α : Type} (points : List α) (seen : α → Bool) : Nat :=
  points.countP fun a => !seen a

theorem remaining_le {α : Type} {points : List α} {seen seen' : α → Bool}
    (h : ∀ a, seen a = true → seen' a = true) :
    remaining points seen' ≤ remaining points seen := by
  refine List.countP_mono_left fun a _ ha => ?_
  cases hs : seen a with
  | false => rfl
  | true => simp [h a hs] at ha

/-- Marking one more element of the universe leaves fewer. -/
theorem remaining_lt {α : Type} {points : List α} {seen seen' : α → Bool} {a : α}
    (h : ∀ b, seen b = true → seen' b = true) (ha : a ∈ points) (hseen : seen a = false)
    (hseen' : seen' a = true) : remaining points seen' < remaining points seen := by
  induction points with
  | nil => simp at ha
  | cons b bs ih =>
    have hle : remaining bs seen' ≤ remaining bs seen := remaining_le h
    rw [remaining, remaining] at *
    rw [List.countP_cons, List.countP_cons]
    rcases List.mem_cons.1 ha with rfl | ha
    · simp [hseen, hseen']
      omega
    · have hlt := ih ha
      cases hb : seen b with
      | true => simp [h b hb]; omega
      | false => cases seen' b <;> simp <;> omega

/-! ## Spaces and outcomes -/

/-- A space to search: what a visit finds and where it leads, inside a finite universe. -/
structure Space (α β : Type) where
  /-- What a visit to a point finds. -/
  visit : α → β
  /-- The points that a find leads to, in the order in which they are met. -/
  next : β → List α
  /-- The points that visits can lead to. -/
  points : List α
  /-- No visit leads out of the universe. -/
  next_subset : ∀ a, ∀ b ∈ next (visit a), b ∈ points

/-- The result of a search. -/
structure Outcome (α β : Type) where
  /-- The visited points with what was found, in the order of the visits. -/
  visits : List (α × β)
  /-- The points that were met and not visited, in the order in which they were met. -/
  pending : List α

namespace Outcome

variable {α β : Type}

/-- The visited points in the order of the visits. -/
def visited (o : Outcome α β) : List α := o.visits.map Prod.fst

/-- Every point that was met. -/
def discovered (o : Outcome α β) : List α := o.visited ++ o.pending

end Outcome

/-! ## The queue -/

/-- The points met so far, and those of them that wait for a visit. -/
structure Frontier (α : Type) [Ord α] where
  /-- Every point met. -/
  seen : SortedSet α
  /-- The points to visit, first come first. -/
  queue : List α

namespace Frontier

variable {α : Type} [Ord α] [TransOrd α] [LawfulEqOrd α] [DecidableEq α]

/-- Nothing met. -/
def empty : Frontier α := ⟨∅, []⟩

/-- Meet a point: it joins the queue the first time. -/
def discover (f : Frontier α) (a : α) : Frontier α :=
  if a ∈ f.seen then f else ⟨f.seen.insert a, f.queue ++ [a]⟩

/-- Meet points one after the other. -/
def discoverAll (f : Frontier α) (xs : List α) : Frontier α := xs.foldl discover f

/-- What bounds the visits to come: the queue and the undiscovered part of the universe. -/
def weight (points : List α) (f : Frontier α) : Nat :=
  remaining points (fun a => a ∈ f.seen) + f.queue.length

theorem weight_discover_le {points : List α} {f : Frontier α} {a : α} (ha : a ∈ points) :
    weight points (f.discover a) ≤ weight points f := by
  rw [discover]
  split
  · exact Nat.le_refl _
  · rename_i h
    have hlt : remaining points (fun b => b ∈ f.seen.insert a)
        < remaining points (fun b => b ∈ f.seen) :=
      remaining_lt (fun b hb => decide_eq_true (Sorted.mem_insert_of_mem (of_decide_eq_true hb))) ha
        (decide_eq_false h) (decide_eq_true (SortedSet.mem_insert_self f.seen a))
    simp only [weight, List.length_append, List.length_singleton]
    omega

theorem weight_discoverAll_le {points xs : List α} {f : Frontier α}
    (h : ∀ a ∈ xs, a ∈ points) :
    weight points (f.discoverAll xs) ≤ weight points f := by
  induction xs generalizing f with
  | nil => exact Nat.le_refl _
  | cons a xs ih =>
    exact Nat.le_trans (ih fun b hb => h b (List.mem_cons_of_mem a hb))
      (weight_discover_le (h a List.mem_cons_self))

end Frontier

/-! ## The search -/

namespace Space

variable {α β : Type} [Ord α] [TransOrd α] [DecidableEq α]

/-- Visit the queue, first come first, and what the visits lead to. A budget of `some n` allows `n`
visits, `none` allows any number. -/
def exploreFrom [LawfulEqOrd α] (S : Space α β) (budget : Option Nat) (f : Frontier α) :
    Outcome α β :=
  match hq : f.queue with
  | [] => ⟨[], []⟩
  | a :: rest =>
    if budget = some 0 then ⟨[], a :: rest⟩
    else
      let found := S.visit a
      let later := S.exploreFrom (budget.map (· - 1))
        (Frontier.discoverAll ⟨f.seen, rest⟩ (S.next found))
      ⟨(a, found) :: later.visits, later.pending⟩
termination_by f.weight S.points
decreasing_by
  refine Nat.lt_of_le_of_lt (Frontier.weight_discoverAll_le (S.next_subset a)) ?_
  simp [Frontier.weight, hq]

/-- Search from the roots. -/
def explore [LawfulEqOrd α] (S : Space α β) (budget : Option Nat) (roots : List α) : Outcome α β :=
  S.exploreFrom budget (Frontier.empty.discoverAll roots)

end Space

end DispatchGraph
