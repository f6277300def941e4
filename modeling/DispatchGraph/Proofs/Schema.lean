import DispatchGraph.Schema.Basic
import Mathlib.Logic.Basic

/-!
# What schemas admit

A value is admitted by a schema when it has no violation. Of each form of schema this module says
what that means for the value: for conditions on texts, lists and objects, and for conjunctions of
them. A text matches a run of a character class followed by a rest when it can be cut into the two
(`manyThen_eq_true`).
-/

namespace DispatchGraph

/-! ## Patterns -/

/-- A run of accepted characters and a rest. -/
theorem manyThen_eq_true {accepts : Char → Bool} {rest : List Char → Bool} {cs : List Char} :
    manyThen accepts rest cs = true ↔
      ∃ run tail, cs = run ++ tail ∧ (∀ c ∈ run, accepts c = true) ∧ rest tail = true := by
  induction cs with
  | nil =>
    constructor
    · intro h
      exact ⟨[], [], rfl, by simp, h⟩
    · rintro ⟨run, tail, hcs, -, hrest⟩
      obtain ⟨rfl, rfl⟩ := List.append_eq_nil_iff.1 hcs.symm
      exact hrest
  | cons c cs ih =>
    rw [manyThen, Bool.or_eq_true, Bool.and_eq_true, ih]
    constructor
    · rintro (hrest | ⟨hc, run, tail, rfl, hrun, hrest⟩)
      · exact ⟨[], c :: cs, rfl, by simp, hrest⟩
      · exact ⟨c :: run, tail, rfl, List.forall_mem_cons.2 ⟨hc, hrun⟩, hrest⟩
    · rintro ⟨run, tail, hcs, hrun, hrest⟩
      cases run with
      | nil => exact .inl (hcs ▸ hrest)
      | cons d run =>
        obtain ⟨rfl, rfl⟩ := List.cons.inj hcs
        obtain ⟨hc, hrun⟩ := List.forall_mem_cons.1 hrun
        exact .inr ⟨hc, run, tail, rfl, hrun, hrest⟩

theorem matchPieces_once {charClass : CharClass} {pieces : List Piece} {cs : List Char} :
    matchPieces (⟨charClass, .once⟩ :: pieces) cs = true ↔
      ∃ c tail, cs = c :: tail ∧ charClass.accepts c = true ∧ matchPieces pieces tail = true := by
  cases cs with
  | nil => simp [matchPieces]
  | cons c cs =>
    rw [matchPieces, Bool.and_eq_true]
    constructor
    · rintro ⟨hc, hcs⟩
      exact ⟨c, cs, rfl, hc, hcs⟩
    · rintro ⟨_, _, heq, hc, hcs⟩
      obtain ⟨rfl, rfl⟩ := List.cons.inj heq
      exact ⟨hc, hcs⟩

theorem matchPieces_atLeastOnce {charClass : CharClass} {pieces : List Piece} {cs : List Char} :
    matchPieces (⟨charClass, .atLeastOnce⟩ :: pieces) cs = true ↔
      ∃ run tail, cs = run ++ tail ∧ run ≠ [] ∧ (∀ c ∈ run, charClass.accepts c = true) ∧
        matchPieces pieces tail = true := by
  cases cs with
  | nil => simp +contextual [matchPieces]
  | cons c cs =>
    rw [matchPieces, Bool.and_eq_true, manyThen_eq_true]
    constructor
    · rintro ⟨hc, run, tail, rfl, hrun, htail⟩
      exact ⟨c :: run, tail, rfl, List.cons_ne_nil _ _, List.forall_mem_cons.2 ⟨hc, hrun⟩, htail⟩
    · rintro ⟨run, tail, hcs, hne, hrun, htail⟩
      obtain ⟨d, run, rfl⟩ := List.exists_cons_of_ne_nil hne
      obtain ⟨rfl, rfl⟩ := List.cons.inj hcs
      obtain ⟨hc, hrun⟩ := List.forall_mem_cons.1 hrun
      exact ⟨hc, run, tail, rfl, hrun, htail⟩

/-- A pattern that is one character class, at least once. -/
theorem isMatch_atLeastOnce {charClass : CharClass} {text : String} :
    Pattern.isMatch ⟨[⟨charClass, .atLeastOnce⟩]⟩ text = true ↔
      text ≠ "" ∧ ∀ c ∈ text.toList, charClass.accepts c = true := by
  have hempty : text = "" ↔ text.toList = [] := by
    rw [← String.toList_inj]
    rfl
  rw [Pattern.isMatch, ne_eq, hempty]
  cases text.toList with
  | nil => simp [matchPieces]
  | cons c cs =>
    rw [matchPieces, Bool.and_eq_true, manyThen_eq_true, List.forall_mem_cons]
    simp [matchPieces]

/-! ## Conditions -/

namespace Schema

theorem violations_allOf {parts : List Schema} {value : Json} :
    (allOf parts).violations value = [] ↔ ∀ part ∈ parts, part.violations value = [] := by
  rw [violations]
  induction parts with
  | nil => simp [allViolations]
  | cons part parts ih => rw [allViolations, List.append_eq_nil_iff, ih, List.forall_mem_cons]

theorem violations_type {expected : ValueType} {value : Json} :
    (type expected).violations value = [] ↔ expected.holds value = true := by
  show (if expected.holds value then [] else [Violation.wrongType value expected]) = [] ↔ _
  split <;> simp_all

theorem violations_const {expected : String} {value : Json} :
    (const expected).violations value = [] ↔ value = .str expected := by
  cases value with
  | str text =>
    show (if text = expected then [] else [Violation.notConst expected]) = [] ↔ _
    split <;> simp_all
  | _ => exact iff_of_false (List.cons_ne_nil _ _) (by simp)

theorem violations_enum {expected : List String} {value : Json} :
    (enum expected).violations value = [] ↔ ∃ text ∈ expected, value = .str text := by
  cases value with
  | str text =>
    show (if text ∈ expected then [] else [Violation.notListed (.str text) expected]) = [] ↔ _
    split <;> simp_all
  | _ => exact iff_of_false (List.cons_ne_nil _ _) (by simp)

theorem violations_minLength {least : Nat} {text : String} :
    (minLength least).violations (.str text) = [] ↔ least ≤ text.length := by
  show (if text.length < least then [Violation.tooShort (.str text) least] else []) = [] ↔ _
  split
  · simp
    omega
  · simp
    omega

theorem violations_pattern {expected : Pattern} {text : String} :
    (pattern expected).violations (.str text) = [] ↔ expected.isMatch text = true := by
  show (if expected.isMatch text then [] else [Violation.noMatch (.str text) expected]) = [] ↔ _
  split <;> simp_all

theorem violations_required {names : List String} {fields : List (String × Json)} :
    (required names).violations (.obj fields) = [] ↔
      ∀ name ∈ names, ∃ field, (Json.obj fields).field? name = some field := by
  have hfield : ∀ name, (∃ field, (Json.obj fields).field? name = some field) ↔
      ∃ field ∈ fields, field.1 = name := by
    intro name
    rw [← Option.isSome_iff_exists, Json.field?, Option.isSome_map, List.find?_isSome]
    simp only [decide_eq_true_eq]
  show (names.filter fun name => fields.all fun field => field.1 ≠ name).map Violation.missing =
    [] ↔ _
  simp only [List.map_eq_nil_iff, List.filter_eq_nil_iff, List.all_eq_true, decide_eq_true_eq,
    not_forall, ne_eq, not_not, exists_prop, hfield]

theorem violations_items {each : Schema} {values : List Json} :
    (items each).violations (.arr values) = [] ↔ ∀ item ∈ values, each.violations item = [] := by
  show (values.flatMap fun item => each.violations item) = [] ↔ _
  rw [List.flatMap_eq_nil_iff]

theorem violations_property {name : String} {schema : Schema} {value : Json} :
    (property name schema).violations value = [] ↔
      ∀ field, value.field? name = some field → schema.violations field = [] := by
  rw [violations]
  cases value.field? name with
  | none => simp
  | some field => simp

theorem admitting_eq_countP (alternatives : List Schema) (value : Json) :
    admitting alternatives value = alternatives.countP fun schema => schema.admits value := by
  induction alternatives with
  | nil => rfl
  | cons schema schemas ih => rw [admitting, ih, List.countP_cons, Nat.add_comm, admits]

/-- Alternatives of which no two admit the same value. -/
theorem violations_oneOf {alternatives : List Schema} {value : Json}
    (hexclusive : alternatives.Pairwise fun a b =>
      a.violations value = [] → b.violations value ≠ []) :
    (oneOf alternatives).violations value = [] ↔
      ∃ schema ∈ alternatives, schema.violations value = [] := by
  have hone : (oneOf alternatives).violations value = [] ↔
      alternatives.countP (fun schema => schema.admits value) = 1 := by
    rw [violations, ← admitting_eq_countP]
    split
    · simp_all
    · simp_all
    · rename_i hone
      simpa using hone
  rw [hone]
  clear hone
  induction alternatives with
  | nil => simp
  | cons schema schemas ih =>
    obtain ⟨hschema, hschemas⟩ := List.pairwise_cons.1 hexclusive
    have hrest := ih hschemas
    simp only [List.mem_cons, exists_eq_or_imp, ← hrest]
    rw [List.countP_cons]
    by_cases hadmits : schema.violations value = []
    · have hnone : ∀ other ∈ schemas, ¬ other.violations value = [] :=
        fun other hother => hschema other hother hadmits
      simpa [admits, hadmits] using hnone
    · simp [admits, hadmits]

end Schema

end DispatchGraph
