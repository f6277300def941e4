import DispatchGraph.Json.Printer
import DispatchGraph.Model.Document
import DispatchGraph.Proofs.Admission

/-!
# Reading model documents

A text is read when it stands for a value that has the format, that decodes, and whose declared
methods have descriptors that can be read (`parseModel_eq_ok`). The classes of a document have the
names that the format asks for (`admitted_of_parseModel`), so they can stand in signatures
(`readable_of_parseModel`). A document that has the format fails to be read only for its
descriptors, and those in the targets of calls count first (`reading_of_admitted`).
-/

namespace DispatchGraph

/-! ## Steps -/

theorem findBadMethod?_eq_none {classes : List ClassDecl} :
    findBadMethod? classes = none ↔
      ∀ m ∈ classes.flatMap ClassDecl.methods, IsDescriptor m.sub.descriptor := by
  rw [findBadMethod?, List.findSome?_eq_none_iff]
  simp only [List.forall_mem_flatMap, List.forall_mem_map]
  refine forall₂_congr fun c _ => forall₂_congr fun m _ => ?_
  rw [IsDescriptor, ← SubSignature.types]
  cases m.sub.types <;> simp

theorem filterMap_descriptor {values : List Json} {methods : List MethodDecl}
    (h : List.Forall₂ Decode.DecodesMethod values methods) :
    values.filterMap (fun value => value.textAt "descriptor") =
      methods.map fun m => m.sub.descriptor := by
  induction h with
  | nil => rfl
  | cons hmethod _ ih => rw [List.filterMap_cons, hmethod.descriptor, ih, List.map_cons]

/-- The declared descriptors are those of the methods that are decoded. -/
theorem declaredDescriptors_eq_map {value : Json} {classes : List ClassDecl}
    (h : List.Forall₂ Decode.DecodesClass (value.itemsAt "classes") classes) :
    declaredDescriptors value =
      (classes.flatMap ClassDecl.methods).map fun m => m.sub.descriptor :=
  filterMap_descriptor (List.rel_flatMap h fun _ _ hclass => hclass.methods)

theorem modelOfJson_eq_ok {value : Json} {classes : List ClassDecl} :
    modelOfJson value = .ok classes ↔ modelSchema.violations value = [] ∧
      Decode.document value = .ok classes ∧ findBadMethod? classes = none := by
  rw [modelOfJson]
  cases hviolations : modelSchema.violations value with
  | cons violation violations => simp
  | nil =>
    cases hdocument : Decode.document value with
    | error error => simp
    | ok decoded =>
      cases hbad : findBadMethod? decoded with
      | some bad =>
        simp only [hbad, reduceCtorEq, Except.ok.injEq, true_and, false_iff, not_and]
        rintro rfl
        simp [hbad]
      | none =>
        simp only [hbad, Except.ok.injEq, true_and]
        refine ⟨?_, And.left⟩
        rintro rfl
        exact ⟨rfl, hbad⟩

theorem parseModel_eq_ok {text : String} {classes : List ClassDecl} :
    parseModel text = .ok classes ↔ ∃ value, Json.parse text = some value ∧
      modelSchema.violations value = [] ∧ Decode.document value = .ok classes ∧
      findBadMethod? classes = none := by
  rw [parseModel]
  cases Json.parse text with
  | none => simp
  | some value => simp [modelOfJson_eq_ok]

/-- The text of a value is read from the characters that the printer gives, which can be computed;
to take them from the string is slow. -/
theorem parseModel_compact {value : Json} {classes : List ClassDecl}
    (h : (((Json.tokens value.chars).bind Json.ofTokens?).bind fun value =>
      (modelOfJson value).toOption) = some classes) :
    parseModel value.compact = .ok classes := by
  obtain ⟨read, hread, hclasses⟩ := Option.bind_eq_some_iff.1 h
  rw [parseModel, Json.parse, Json.compact, String.toList_ofList, hread]
  exact eq_ok_of_toOption hclasses

/-- **The classes of a document are as the format asks.** -/
theorem admitted_of_parseModel {text : String} {classes : List ClassDecl}
    (h : parseModel text = .ok classes) : ∀ c ∈ classes, c.Admitted := by
  obtain ⟨value, -, hformat, hdocument, -⟩ := parseModel_eq_ok.1 h
  have houtcome := Decode.outcome_document (Format.modelSchema_iff.1 hformat)
  intro c hc
  obtain ⟨_, -, hclass⟩ := exists_of_mem_forall₂ (houtcome.of_eq_ok hdocument).2 hc
  exact hclass.admitted

/-- A class declaration that can stand in signatures: its name can, and so can the targets of the
calls in its methods. -/
structure ClassDecl.Readable (c : ClassDecl) : Prop where
  name : ReadableOwner c.name
  calls : ∀ m ∈ c.methods, ∀ call ∈ m.calls, call.target.Readable

theorem PlainName.readableOwner {name : ClassName} (h : PlainName name) : ReadableOwner name :=
  ⟨h.ne_empty, fun hmem => by simpa using h.free '(' hmem⟩

theorem ClassDecl.Admitted.readable {c : ClassDecl} (h : c.Admitted) : c.Readable :=
  ⟨h.name.readableOwner, fun m hm call hcall => ((h.methods m hm).calls call hcall).readable⟩

/-- **The classes of a document can stand in signatures.** -/
theorem readable_of_parseModel {text : String} {classes : List ClassDecl}
    (h : parseModel text = .ok classes) : ∀ c ∈ classes, c.Readable :=
  fun c hc => (admitted_of_parseModel h c hc).readable

/-! ## Documents that have the format -/

/-- How reading a text goes that stands for a value with the format of a model document. -/
structure AdmittedReading (text : String) (value : Json) : Prop where
  /-- The value decodes unless the target of a call is no signature. -/
  decodes_iff : (∃ classes, Decode.document value = .ok classes) ↔
    ∀ target ∈ callTargets value, IsSignature target
  /-- A target that is no signature fails by its descriptor. -/
  rejected : ∀ target ∈ callTargets value, ∀ error, Signature.parse target = .error error →
    Format.FailsByDescriptor target error
  /-- The first such target is reported, whatever the declared descriptors are. -/
  reported : ∀ error, Decode.document value = .error error →
    ∃ before target after cause, callTargets value = before ++ target :: after ∧
      (∀ earlier ∈ before, IsSignature earlier) ∧
      Signature.parse target = .error (.badDescriptor target cause) ∧
      error = .target (.badDescriptor target cause) ∧
      parseModel text = .error (.undecodable error)
  /-- The text is read if all targets are signatures and all declared descriptors can be read. -/
  accepted_iff : (∃ classes, parseModel text = .ok classes) ↔
    (∀ target ∈ callTargets value, IsSignature target) ∧
      ∀ descriptor ∈ declaredDescriptors value, IsDescriptor descriptor
  /-- The names of classes can be told apart from what stands around them. -/
  names : ∀ classes, parseModel text = .ok classes → ∀ c ∈ classes,
    PlainName c.name ∧ (∀ name ∈ c.superclass, PlainName name) ∧
      ∀ name ∈ c.interfaces, PlainName name

section

variable {text : String} {value : Json}

/-- Decoding stops at the first target that is no signature, before any declared descriptor is
looked at. -/
theorem reported_of_document (hparse : Json.parse text = some value)
    (hformat : modelSchema.violations value = []) {error : DecodeError}
    (herror : Decode.document value = .error error) :
    ∃ before target after cause, callTargets value = before ++ target :: after ∧
      (∀ earlier ∈ before, IsSignature earlier) ∧
      Signature.parse target = .error (.badDescriptor target cause) ∧
      error = .target (.badDescriptor target cause) ∧
      parseModel text = .error (.undecodable error) := by
  have hvalue : Format.IsDocument value := Format.modelSchema_iff.1 hformat
  obtain ⟨before, target, after, _, htargets, hbefore, hfails, rfl⟩ :=
    (Decode.outcome_document hvalue).of_eq_error herror
  have htarget : target ∈ callTargets value := htargets ▸ List.mem_append_cons_self
  have hlooks := looks_of_mem_callTargets hvalue htarget
  obtain ⟨_, cause, -, -, -, -, rfl⟩ := Format.failsByDescriptor_of_parse hlooks hfails
  refine ⟨before, target, after, cause, htargets, hbefore, hfails, rfl, ?_⟩
  simp only [parseModel, hparse, modelOfJson, hformat, herror]

theorem findBadMethod?_of_document {classes : List ClassDecl} (hvalue : Format.IsDocument value)
    (hdocument : Decode.document value = .ok classes) :
    findBadMethod? classes = none ↔
      ∀ descriptor ∈ declaredDescriptors value, IsDescriptor descriptor := by
  have hclasses := ((Decode.outcome_document hvalue).of_eq_ok hdocument).2
  rw [findBadMethod?_eq_none, declaredDescriptors_eq_map hclasses, List.forall_mem_map]

theorem exists_parseModel_iff (hparse : Json.parse text = some value)
    (hformat : modelSchema.violations value = []) :
    (∃ classes, parseModel text = .ok classes) ↔
      (∀ target ∈ callTargets value, IsSignature target) ∧
        ∀ descriptor ∈ declaredDescriptors value, IsDescriptor descriptor := by
  have hvalue : Format.IsDocument value := Format.modelSchema_iff.1 hformat
  rw [← (Decode.outcome_document hvalue).exists_ok_iff]
  constructor
  · rintro ⟨classes, hclasses⟩
    rw [parseModel, hparse] at hclasses
    obtain ⟨-, hdocument, hnone⟩ := modelOfJson_eq_ok.1 hclasses
    exact ⟨⟨classes, hdocument⟩, (findBadMethod?_of_document hvalue hdocument).1 hnone⟩
  · rintro ⟨⟨classes, hdocument⟩, hdescriptors⟩
    have hnone := (findBadMethod?_of_document hvalue hdocument).2 hdescriptors
    exact ⟨classes, parseModel_eq_ok.2 ⟨value, hparse, hformat, hdocument, hnone⟩⟩

/-- **A document that has the format fails to be read only for its descriptors.** Those in the
targets of calls come first, in the order of the document. -/
theorem reading_of_admitted (hparse : Json.parse text = some value)
    (hadmits : modelSchema.admits value = true) : AdmittedReading text value := by
  have hformat : modelSchema.violations value = [] := by simpa [Schema.admits] using hadmits
  have hvalue : Format.IsDocument value := Format.modelSchema_iff.1 hformat
  refine ⟨(Decode.outcome_document hvalue).exists_ok_iff, fun target htarget error hfails => ?_,
    fun error herror => reported_of_document hparse hformat herror,
    exists_parseModel_iff hparse hformat, fun classes hclasses c hc => ?_⟩
  · exact Format.failsByDescriptor_of_parse (looks_of_mem_callTargets hvalue htarget) hfails
  · have hclass := admitted_of_parseModel hclasses c hc
    exact ⟨hclass.name, hclass.superclass, hclass.interfaces⟩

end

/-- A document with a call whose target has no descriptor that can be read, and before it a method
whose own descriptor cannot be read either. -/
def strayDocument : Json :=
  .obj [("classes", .arr [.obj [("name", .str "App"), ("comment", .null), ("methods", .arr [
    .obj [("name", .str "run"), ("descriptor", .str "(W)V"), ("body", .arr [
      .obj [("op", .str "invoke"), ("target", .str "App.stop()V")],
      .obj [("op", .str "assign"), ("local", .str "x"), ("value", .obj [
        ("op", .str "invoke"), ("target", .str "App.stop(Q)V"), ("kind", .str "static")])]])]])]])]

theorem reading_of_admitted_stray :
    ∃ value, Json.parse strayDocument.compact = some value ∧ modelSchema.admits value = true ∧
      callTargets value = ["App.stop()V", "App.stop(Q)V"] ∧
      declaredDescriptors value = ["(W)V"] ∧ AdmittedReading strayDocument.compact value := by
  have hread : (Json.parse strayDocument.compact).any (fun value => modelSchema.admits value ∧
      callTargets value = ["App.stop()V", "App.stop(Q)V"] ∧
      declaredDescriptors value = ["(W)V"]) = true := by
    -- the characters come straight from the printer: to take them from a string is slow
    rw [Json.parse, Json.compact, String.toList_ofList]
    decide +kernel
  obtain ⟨value, hparse, hvalue⟩ := (Option.any_eq_true _ _).1 hread
  obtain ⟨hadmits, htargets, hdescriptors⟩ := of_decide_eq_true hvalue
  exact ⟨value, hparse, hadmits, htargets, hdescriptors, reading_of_admitted hparse hadmits⟩

end DispatchGraph
