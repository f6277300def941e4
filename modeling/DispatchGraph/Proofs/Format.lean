import DispatchGraph.Model.Format
import DispatchGraph.Proofs.Schema
import DispatchGraph.Proofs.Signature

/-!
# Values that have the format of model documents

For the format of each part of a model document, what the values look like that it admits: which
fields they have, which they may have, and what stands in these (`Json.Has`, `Json.MayHave`). Each
form is an equivalence, so it serves to take apart a value that has the format, and to show that a
value has it. The alternatives of a statement exclude each other, since each names itself in the
field `op` (`Format.statement_iff`).

The pattern for the targets of calls makes sure of all that reading a signature asks for, except for
the descriptor (`Format.failsByDescriptor_of_parse`).
-/

namespace DispatchGraph

/-! ## Fields -/

namespace Json

/-- The value has a field of that name, and what stands in it satisfies `P`. -/
def Has (value : Json) (name : String) (P : Json → Prop) : Prop :=
  ∃ field, value.field? name = some field ∧ P field

/-- If the value has a field of that name, what stands in it satisfies `P`. -/
def MayHave (value : Json) (name : String) (P : Json → Prop) : Prop :=
  ∀ field, value.field? name = some field → P field

variable {value : Json} {name : String} {P : Json → Prop}

theorem Has.exists_fields (h : value.Has name P) : ∃ fields, value = .obj fields := by
  obtain ⟨field, hfield, -⟩ := h
  cases value with
  | obj fields => exact ⟨fields, rfl⟩
  | _ => simp [field?] at hfield

theorem has_iff :
    value.Has name P ↔ (∃ field, value.field? name = some field) ∧ value.MayHave name P := by
  constructor
  · rintro ⟨field, hfield, hP⟩
    refine ⟨⟨field, hfield⟩, fun field' hfield' => ?_⟩
    obtain rfl : field = field' := Option.some.inj (hfield.symm.trans hfield')
    exact hP
  · rintro ⟨⟨field, hfield⟩, hP⟩
    exact ⟨field, hfield, hP field hfield⟩

end Json

/-- A name without the characters that would make a signature or a descriptor ambiguous. -/
structure PlainName (name : ClassName) : Prop where
  ne_empty : name ≠ ""
  free : ∀ c ∈ name.toList, c ∉ ['.', ';', '[', '(', ')']

namespace Format

variable {value : Json}

/-! ## Objects, lists and null -/

/-- A record: an object that has the fields of some names, and in whose fields stands what their
formats admit. -/
theorem record_iff (properties : List (String × Schema)) (names : List String) :
    (Schema.allOf (properties.map (fun property => .property property.1 property.2) ++
        [.required names, .type .object])).violations value = [] ↔
      (∃ fields, value = .obj fields) ∧
      (∀ property ∈ properties, value.MayHave property.1 fun field =>
        property.2.violations field = []) ∧
      ∀ name ∈ names, ∃ field, value.field? name = some field := by
  rw [Schema.violations_allOf, List.forall_mem_append, List.forall_mem_map]
  simp only [Schema.violations_property, List.forall_mem_cons, List.not_mem_nil,
    Schema.violations_type, Json.MayHave]
  cases value with
  | obj fields => simp [Schema.violations_required, ValueType.holds]
  | _ => simp [ValueType.holds]

/-- A text of which some conditions hold. -/
theorem text_iff (parts : List Schema) :
    (Schema.allOf (parts ++ [.type .string])).violations value = [] ↔
      ∃ text, value = .str text ∧ ∀ part ∈ parts, part.violations (.str text) = [] := by
  rw [Schema.violations_allOf, List.forall_mem_append]
  simp only [List.forall_mem_singleton, Schema.violations_type]
  cases value with
  | str text => simp [ValueType.holds]
  | _ => simp [ValueType.holds]

theorem string_iff : (Schema.type .string).violations value = [] ↔ ∃ text, value = .str text := by
  rw [Schema.violations_type]
  cases value <;> simp [ValueType.holds]

theorem boolean_iff :
    (Schema.type .boolean).violations value = [] ↔ ∃ flag, value = .bool flag := by
  rw [Schema.violations_type]
  cases value <;> simp [ValueType.holds]

theorem listOf_iff {each : Schema} :
    (listOf each).violations value = [] ↔
      ∃ items, value = .arr items ∧ ∀ item ∈ items, each.violations item = [] := by
  simp only [listOf, Schema.violations_allOf, List.forall_mem_cons, List.not_mem_nil,
    Schema.violations_type]
  cases value with
  | arr items => simp [Schema.violations_items, ValueType.holds]
  | _ => simp [ValueType.holds]

theorem nullable_iff {schema : Schema} (hnull : schema.violations .null ≠ []) :
    (Schema.oneOf [schema, .type .null]).violations value = [] ↔
      value = .null ∨ schema.violations value = [] := by
  have htype : (Schema.type .null).violations value = [] ↔ value = .null := by
    rw [Schema.violations_type]
    cases value <;> simp [ValueType.holds]
  have hexclusive : [schema, .type .null].Pairwise fun a b =>
      a.violations value = [] → b.violations value ≠ [] := by
    simp only [List.pairwise_pair, ne_eq, htype]
    rintro hschema rfl
    exact hnull hschema
  rw [Schema.violations_oneOf hexclusive]
  simp [htype, or_comm]

/-! ## Names -/

theorem minLength_one_iff {text : String} :
    (Schema.minLength 1).violations (.str text) = [] ↔ text ≠ "" := by
  rw [Schema.violations_minLength, Nat.one_le_iff_ne_zero, ne_eq, ne_eq, String.length_eq_zero_iff]

/-- The value is the name of a class. -/
def IsClassName (value : Json) : Prop := ∃ name, value = .str name ∧ PlainName name

theorem className_iff : className.violations value = [] ↔ IsClassName value := by
  refine (text_iff [.minLength 1, .pattern classNamePattern]).trans
    (exists_congr fun name => and_congr_right fun _ => ?_)
  simp only [List.forall_mem_cons, List.not_mem_nil, minLength_one_iff, Schema.violations_pattern,
    classNamePattern, isMatch_atLeastOnce, CharClass.accepts, decide_eq_true_eq]
  constructor
  · rintro ⟨hne, ⟨-, hfree⟩, -⟩
    exact ⟨hne, hfree⟩
  · rintro ⟨hne, hfree⟩
    exact ⟨hne, ⟨hne, hfree⟩, by simp⟩

/-- The value is a text that matches a pattern. -/
def IsMatch (pattern : Pattern) (value : Json) : Prop :=
  ∃ text, value = .str text ∧ pattern.isMatch text = true

theorem match_iff {pattern : Pattern} :
    (Schema.allOf [.pattern pattern, .type .string]).violations value = [] ↔
      IsMatch pattern value := by
  refine (text_iff [.pattern pattern]).trans
    (exists_congr fun text => and_congr_right fun _ => ?_)
  rw [List.forall_mem_singleton, Schema.violations_pattern]

/-- What a text looks like up to its first parenthesis if it looks like a signature. -/
theorem exists_of_signaturePattern {text : String} (h : signaturePattern.isMatch text = true) :
    ∃ owner name rest, text.toList = (owner ++ '.' :: name) ++ '(' :: rest ∧ owner ≠ [] ∧
      name ≠ [] ∧ '(' ∉ owner ∧ '(' ∉ name ∧ '.' ∉ name := by
  obtain ⟨owner, tail, htext, howner, hfreeOwner, htail⟩ := matchPieces_atLeastOnce.1 h
  obtain ⟨dot, tail, rfl, hdot, htail⟩ := matchPieces_once.1 htail
  obtain ⟨name, tail, rfl, hname, hfreeName, htail⟩ := matchPieces_atLeastOnce.1 htail
  obtain ⟨paren, rest, rfl, hparen, -⟩ := matchPieces_once.1 htail
  obtain rfl : dot = '.' := by simpa [CharClass.accepts] using hdot
  obtain rfl : paren = '(' := by simpa [CharClass.accepts] using hparen
  refine ⟨owner, name, rest, by simp [htext], howner, hname, fun hmem => ?_, fun hmem => ?_,
    fun hmem => ?_⟩
  · simpa [CharClass.accepts] using hfreeOwner _ hmem
  · simpa [CharClass.accepts] using hfreeName _ hmem
  · simpa [CharClass.accepts] using hfreeName _ hmem

/-- The text has a class and a name and fails by what stands in place of a descriptor. -/
def FailsByDescriptor (text : String) (error : Signature.Error) : Prop :=
  ∃ s cause, text = Signature.text s ∧ ReadableOwner s.owner ∧ s.sub.name ≠ "" ∧
    s.sub.types = .error cause ∧ error = .badDescriptor text cause

/-- **A text that looks like a signature is one unless its descriptor is none.** -/
theorem failsByDescriptor_of_parse {text : String} {error : Signature.Error}
    (h : signaturePattern.isMatch text = true) (hparse : Signature.parse text = .error error) :
    FailsByDescriptor text error := by
  obtain ⟨owner, name, rest, htext, howner, hname, hfreeOwner, hfreeName, hdot⟩ :=
    exists_of_signaturePattern h
  -- the pattern puts the first parenthesis where reading cuts, and the last dot before the name
  have hfree : ∀ c ∈ owner ++ '.' :: name, (c != '(') = true := by
    intro c hc
    rw [bne_iff_ne]
    rintro rfl
    simp [hfreeOwner, hfreeName] at hc
  have htake : text.toList.takeWhile (· != '(') = owner ++ '.' :: name := by
    rw [htext, List.takeWhile_append_of_pos hfree]
    simp
  have hdrop : text.toList.dropWhile (· != '(') = '(' :: rest := by
    rw [htext, List.dropWhile_append_of_pos hfree]
    simp
  have hparts : ¬ (owner = [] ∨ name = []) := by simp [howner, hname]
  simp only [Signature.parse, htake, hdrop, splitLast?_append hdot, if_neg hparts] at hparse
  rw [if_neg (List.cons_ne_nil _ _)] at hparse
  split at hparse
  · rename_i cause htypes
    refine ⟨⟨String.ofList owner, String.ofList name, String.ofList ('(' :: rest)⟩, cause, ?_,
      ⟨?_, ?_⟩, ?_, htypes, (Except.error.inj hparse).symm⟩
    · rw [← String.toList_inj, Signature.toList_text]
      simp [htext]
    · simpa using howner
    · simpa using hfreeOwner
    · simpa using hname
  · contradiction

/-! ## Statements -/

/-- The value is a call: it names its target and perhaps its kind. -/
structure IsInvoke (value : Json) : Prop where
  op : value.Has "op" (· = .str "invoke")
  target : value.Has "target" (IsMatch signaturePattern)
  kind : value.MayHave "kind" fun field => ∃ kind : CallKind, field = .str kind.text

/-- The value is a statement that is no call. -/
def IsOther (value : Json) : Prop := value.Has "op" (· = .str "other")

/-- The value is the right side of an assignment. -/
def IsRightSide (value : Json) : Prop := IsInvoke value ∨ IsOther value

/-- The value is an assignment. -/
structure IsAssign (value : Json) : Prop where
  op : value.Has "op" (· = .str "assign")
  localName : value.Has "local" fun field => ∃ text, field = .str text
  value : value.Has "value" IsRightSide

/-- The value is a statement. -/
def IsStatement (value : Json) : Prop := IsInvoke value ∨ IsAssign value ∨ IsOther value

theorem kind_iff :
    (Schema.enum (CallKind.all.map CallKind.text)).violations value = [] ↔
      ∃ kind : CallKind, value = .str kind.text := by
  rw [Schema.violations_enum]
  constructor
  · rintro ⟨text, htext, rfl⟩
    obtain ⟨kind, -, rfl⟩ := List.mem_map.1 htext
    exact ⟨kind, rfl⟩
  · rintro ⟨kind, rfl⟩
    exact ⟨kind.text, List.mem_map_of_mem (by cases kind <;> decide), rfl⟩

theorem invoke_iff : invoke.violations value = [] ↔ IsInvoke value := by
  refine (record_iff [("kind", .enum (CallKind.all.map CallKind.text)), ("op", .const "invoke"),
    ("target", signature)] ["op", "target"]).trans ?_
  simp only [List.forall_mem_cons, List.not_mem_nil, kind_iff, Schema.violations_const, signature,
    match_iff]
  constructor
  · rintro ⟨-, ⟨hkind, hop, htarget, -⟩, hopField, htargetField, -⟩
    exact ⟨Json.has_iff.2 ⟨hopField, hop⟩, Json.has_iff.2 ⟨htargetField, htarget⟩, hkind⟩
  · rintro ⟨hop, htarget, hkind⟩
    obtain ⟨hopField, hopValue⟩ := Json.has_iff.1 hop
    obtain ⟨htargetField, htargetValue⟩ := Json.has_iff.1 htarget
    exact ⟨hop.exists_fields, ⟨hkind, hopValue, htargetValue, by simp⟩, hopField, htargetField,
      by simp⟩

theorem other_iff : other.violations value = [] ↔ IsOther value := by
  refine (record_iff [("op", .const "other")] ["op"]).trans ?_
  simp only [List.forall_mem_cons, List.not_mem_nil, Schema.violations_const]
  constructor
  · rintro ⟨-, ⟨hop, -⟩, hopField, -⟩
    exact Json.has_iff.2 ⟨hopField, hop⟩
  · intro hop
    obtain ⟨hopField, hopValue⟩ := Json.has_iff.1 hop
    exact ⟨hop.exists_fields, ⟨hopValue, by simp⟩, hopField, by simp⟩

/-- What a value names itself in its field `op` excludes every other name. -/
theorem not_op_of_op {op op' : String} (hop : value.Has "op" (· = .str op)) (hne : op ≠ op') :
    ¬ value.Has "op" (· = .str op') := by
  rintro ⟨field, hfield, rfl⟩
  obtain ⟨field', hfield', rfl⟩ := hop
  rw [hfield] at hfield'
  exact hne (Json.str.inj (Option.some.inj hfield')).symm

theorem rightSide_iff :
    (Schema.oneOf [invoke, other]).violations value = [] ↔ IsRightSide value := by
  have hexclusive : [invoke, other].Pairwise fun a b =>
      a.violations value = [] → b.violations value ≠ [] := by
    simp only [List.pairwise_pair, ne_eq, invoke_iff, other_iff]
    exact fun h => not_op_of_op h.op (by decide)
  rw [Schema.violations_oneOf hexclusive]
  simp [invoke_iff, other_iff, IsRightSide]

theorem assign_iff : assign.violations value = [] ↔ IsAssign value := by
  refine (record_iff [("local", .type .string), ("op", .const "assign"),
    ("value", .oneOf [invoke, other])] ["op", "local", "value"]).trans ?_
  simp only [List.forall_mem_cons, List.not_mem_nil, string_iff, Schema.violations_const,
    rightSide_iff]
  constructor
  · rintro ⟨-, ⟨hlocal, hop, hvalue, -⟩, hopField, hlocalField, hvalueField, -⟩
    exact ⟨Json.has_iff.2 ⟨hopField, hop⟩, Json.has_iff.2 ⟨hlocalField, hlocal⟩,
      Json.has_iff.2 ⟨hvalueField, hvalue⟩⟩
  · rintro ⟨hop, hlocal, hvalue⟩
    obtain ⟨hopField, hopValue⟩ := Json.has_iff.1 hop
    obtain ⟨hlocalField, hlocalValue⟩ := Json.has_iff.1 hlocal
    obtain ⟨hvalueField, hvalueValue⟩ := Json.has_iff.1 hvalue
    exact ⟨hop.exists_fields, ⟨hlocalValue, hopValue, hvalueValue, by simp⟩, hopField, hlocalField,
      hvalueField, by simp⟩

/-- Of the alternatives of a statement at most one can hold, because each names itself. -/
theorem statement_iff : statement.violations value = [] ↔ IsStatement value := by
  have hexclusive : [invoke, assign, other].Pairwise fun a b =>
      a.violations value = [] → b.violations value ≠ [] := by
    simp only [List.pairwise_cons, List.forall_mem_cons, List.not_mem_nil, ne_eq, invoke_iff,
      assign_iff, other_iff]
    refine ⟨⟨fun h h' => ?_, fun h => ?_, by simp⟩, ⟨fun h => ?_, by simp⟩, by simp, .nil⟩
    · exact not_op_of_op h.op (by decide) h'.op
    · exact not_op_of_op h.op (by decide)
    · exact not_op_of_op h.op (by decide)
  rw [statement, Schema.violations_oneOf hexclusive]
  simp [invoke_iff, assign_iff, other_iff, IsStatement]

/-! ## Declarations -/

/-- The value is a list of values that satisfy `P`. -/
def IsListOf (P : Json → Prop) (value : Json) : Prop :=
  ∃ items, value = .arr items ∧ ∀ item ∈ items, P item

theorem IsListOf.of_mem {P : Json → Prop} {items : List Json} (h : IsListOf P (.arr items))
    {item : Json} (hitem : item ∈ items) : P item := by
  obtain ⟨_, heq, hP⟩ := h
  obtain rfl := Json.arr.inj heq
  exact hP item hitem

/-- The value is a method declaration. -/
structure IsMethod (value : Json) : Prop where
  name : value.Has "name" fun field => ∃ text, field = .str text ∧ text ≠ ""
  descriptor : value.Has "descriptor" (IsMatch descriptorPattern)
  static : value.MayHave "static" fun field => ∃ flag, field = .bool flag
  body : value.MayHave "body" fun field => field = .null ∨ IsListOf IsStatement field

/-- The value is a class declaration. -/
structure IsClass (value : Json) : Prop where
  name : value.Has "name" IsClassName
  superclass : value.MayHave "superclass" fun field => field = .null ∨ IsClassName field
  interfaces : value.MayHave "interfaces" (IsListOf IsClassName)
  interface : value.MayHave "interface" fun field => ∃ flag, field = .bool flag
  methods : value.MayHave "methods" (IsListOf IsMethod)

/-- The value is a model document. -/
def IsDocument (value : Json) : Prop := value.Has "classes" (IsListOf IsClass)

theorem body_iff :
    (Schema.oneOf [listOf statement, .type .null]).violations value = [] ↔
      value = .null ∨ IsListOf IsStatement value := by
  have hnull : (listOf statement).violations .null ≠ [] := by simp [listOf_iff]
  rw [nullable_iff hnull]
  simp only [listOf_iff, statement_iff, IsListOf]

theorem superclass_iff :
    (Schema.oneOf [className, .type .null]).violations value = [] ↔
      value = .null ∨ IsClassName value := by
  have hnull : className.violations .null ≠ [] := by simp [className_iff, IsClassName]
  rw [nullable_iff hnull, className_iff]

theorem method_iff : method.violations value = [] ↔ IsMethod value := by
  have hname : ∀ field : Json, (Schema.allOf [.minLength 1, .type .string]).violations field = [] ↔
      ∃ text, field = .str text ∧ text ≠ "" := by
    intro field
    refine (text_iff [.minLength 1]).trans (exists_congr fun text => and_congr_right fun _ => ?_)
    rw [List.forall_mem_singleton, minLength_one_iff]
  refine (record_iff [("body", .oneOf [listOf statement, .type .null]),
    ("descriptor", .allOf [.pattern descriptorPattern, .type .string]),
    ("name", .allOf [.minLength 1, .type .string]), ("static", .type .boolean)]
    ["name", "descriptor"]).trans ?_
  simp only [List.forall_mem_cons, List.not_mem_nil, body_iff, match_iff, hname, boolean_iff]
  constructor
  · rintro ⟨-, ⟨hbody, hdescriptor, hname, hstatic, -⟩, hnameField, hdescriptorField, -⟩
    exact ⟨Json.has_iff.2 ⟨hnameField, hname⟩, Json.has_iff.2 ⟨hdescriptorField, hdescriptor⟩,
      hstatic, hbody⟩
  · rintro ⟨hname, hdescriptor, hstatic, hbody⟩
    obtain ⟨hnameField, hnameValue⟩ := Json.has_iff.1 hname
    obtain ⟨hdescriptorField, hdescriptorValue⟩ := Json.has_iff.1 hdescriptor
    exact ⟨hname.exists_fields, ⟨hbody, hdescriptorValue, hnameValue, hstatic, by simp⟩, hnameField,
      hdescriptorField, by simp⟩

theorem classDecl_iff : classDecl.violations value = [] ↔ IsClass value := by
  refine (record_iff [("interface", .type .boolean), ("interfaces", listOf className),
    ("methods", listOf method), ("name", className),
    ("superclass", .oneOf [className, .type .null])] ["name"]).trans ?_
  simp only [List.forall_mem_cons, List.not_mem_nil, boolean_iff, listOf_iff, method_iff,
    className_iff, superclass_iff]
  constructor
  · rintro ⟨-, ⟨hinterface, hinterfaces, hmethods, hname, hsuperclass, -⟩, hnameField, -⟩
    exact ⟨Json.has_iff.2 ⟨hnameField, hname⟩, hsuperclass, hinterfaces, hinterface, hmethods⟩
  · rintro ⟨hname, hsuperclass, hinterfaces, hinterface, hmethods⟩
    obtain ⟨hnameField, hnameValue⟩ := Json.has_iff.1 hname
    exact ⟨hname.exists_fields, ⟨hinterface, hinterfaces, hmethods, hnameValue, hsuperclass,
      by simp⟩, hnameField, by simp⟩

/-- **What model documents look like.** -/
theorem modelSchema_iff : modelSchema.violations value = [] ↔ IsDocument value := by
  refine (record_iff [("classes", listOf classDecl)] ["classes"]).trans ?_
  simp only [List.forall_mem_cons, List.not_mem_nil, listOf_iff, classDecl_iff]
  constructor
  · rintro ⟨-, ⟨hclasses, -⟩, hclassesField, -⟩
    exact Json.has_iff.2 ⟨hclassesField, hclasses⟩
  · intro hclasses
    obtain ⟨hclassesField, hclassesValue⟩ := Json.has_iff.1 hclasses
    exact ⟨hclasses.exists_fields, ⟨hclassesValue, by simp⟩, hclassesField, by simp⟩

end Format

end DispatchGraph
