import DispatchGraph.Model.Encoding
import DispatchGraph.Proofs.Document
import DispatchGraph.Proofs.JsonRoundTrip

/-!
# Writing model documents

The classes of a document are written with every field, and reading that text gives them back
(`parseModel_documentToJson`). The written value is plain JSON, so it is read in its normal form.
Level by level that form has the format of model documents and decodes to what was written
(`Format.Restores`): calls, right sides, statements, methods, classes.
-/

namespace DispatchGraph

/-! ## Restored parts -/

namespace Json

/-- The fields of a normal form by their names. -/
theorem exists_normal_obj (fields : List (String × Json)) :
    ∃ found, (obj fields).normal = .obj found ∧
      ∀ name, (obj found).field? name = ((obj fields.reverse).field? name).map normal :=
  ⟨_, rfl, field?_normal fields⟩

theorem mayHave_of_field? {value field : Json} {name : String} {P : Json → Prop}
    (h : value.field? name = some field) (hP : P field) : value.MayHave name P :=
  (has_iff.1 ⟨field, h, hP⟩).2

end Json

namespace Format

open Decode (Decoded)

/-- The normal form of a written value has a form and decodes to what was written. -/
structure Restores {α : Type} (form : Json → Prop) (decode : Json → Decoded α) (written : Json)
    (a : α) : Prop where
  form : form written.normal
  decode : decode written.normal = .ok a

theorem restores_list {α : Type} {form : Json → Prop} {decode : Json → Decoded α}
    {toJson : α → Json} {xs : List α} (h : ∀ x ∈ xs, Restores form decode (toJson x) x) :
    Restores (IsListOf form) (Decode.list decode) (.arr (xs.map toJson)) xs := by
  have hnormal : (Json.arr (xs.map toJson)).normal = .arr (xs.map fun x => (toJson x).normal) := by
    rw [Json.normal, Json.normalItems_eq_map, List.map_map]
    rfl
  constructor
  · rw [hnormal]
    exact ⟨_, rfl, List.forall_mem_map.2 fun x hx => (h x hx).form⟩
  · rw [hnormal]
    exact Decode.list_map fun x hx => (h x hx).decode

end Format

open Format

/-! ## Statements -/

/-- A call, with what it is. -/
theorem Invocation.exists_restored {call : Invocation} (h : call.target.Admitted) :
    ∃ found, (Expression.invoke call).toJson.normal = .obj found ∧ IsInvoke (.obj found) ∧
      Decode.invocation (.obj found) = .ok call := by
  obtain ⟨found, hnormal, hfield⟩ := Json.exists_normal_obj (("op", .str "invoke") :: call.fields)
  have hop : (Json.obj found).field? "op" = some (.str "invoke") := hfield "op"
  have htarget : (Json.obj found).field? "target" = some (.str call.target.text) := hfield "target"
  have hkind : (Json.obj found).field? "kind" = some (.str call.kind.text) := hfield "kind"
  refine ⟨found, hnormal, ⟨⟨_, hop, rfl⟩, ⟨_, htarget, _, rfl, h.looks⟩,
    Json.mayHave_of_field? hkind ⟨_, rfl⟩⟩, ?_⟩
  refine bind_eq_ok.2 ⟨found, rfl, bind_eq_ok.2 ⟨call.target, ?_, ?_⟩⟩
  · rw [Decode.need_of_field? htarget, Decode.signature_text h.readable]
  · refine bind_eq_ok.2 ⟨call.kind, ?_, rfl⟩
    rw [Decode.want_of_field? hkind]
    exact Decode.kind_text call.kind

theorem Expression.restores {value : Expression}
    (h : ∀ call, value = .invoke call → call.target.Admitted) :
    Restores IsRightSide Decode.expression value.toJson value := by
  cases value with
  | invoke call =>
    obtain ⟨found, hnormal, hform, hdecode⟩ := Invocation.exists_restored (h call rfl)
    constructor
    · rw [hnormal]
      exact .inl hform
    · rw [hnormal]
      exact bind_eq_ok.2 ⟨_, Decode.tagged_obj hform.op rfl, bind_eq_ok.2 ⟨call, hdecode, rfl⟩⟩
  | other =>
    have hop : Expression.other.toJson.normal.Has "op" (· = .str "other") := ⟨_, rfl, rfl⟩
    exact ⟨.inr hop, rfl⟩

theorem Statement.restores {s : Statement} (h : ∀ call ∈ s.invocation?, call.target.Admitted) :
    Restores IsStatement Decode.statement s.toJson s := by
  cases s with
  | invoke call =>
    obtain ⟨found, hnormal, hform, hdecode⟩ := Invocation.exists_restored (h call rfl)
    have hnormal : (Statement.invoke call).toJson.normal = .obj found := hnormal
    constructor
    · rw [hnormal]
      exact .inl hform
    · rw [hnormal]
      exact bind_eq_ok.2 ⟨_, Decode.tagged_obj hform.op rfl, bind_eq_ok.2 ⟨call, hdecode, rfl⟩⟩
  | assign localName value =>
    have hvalue : Restores IsRightSide Decode.expression value.toJson value := by
      refine Expression.restores fun call hcall => h call ?_
      rw [hcall]
      rfl
    obtain ⟨found, hnormal, hfield⟩ := Json.exists_normal_obj
      [("op", .str "assign"), ("local", .str localName), ("value", value.toJson)]
    have hop : (Json.obj found).Has "op" (· = .str "assign") := ⟨_, hfield "op", rfl⟩
    have hlocal : (Json.obj found).field? "local" = some (.str localName) := hfield "local"
    have hright : (Json.obj found).field? "value" = some value.toJson.normal := hfield "value"
    rw [← Statement.toJson] at hnormal
    constructor
    · rw [hnormal]
      exact .inr (.inl ⟨hop, ⟨_, hlocal, _, rfl⟩, ⟨_, hright, hvalue.form⟩⟩)
    · rw [hnormal]
      refine bind_eq_ok.2 ⟨_, Decode.tagged_obj hop rfl, bind_eq_ok.2 ⟨found, rfl, ?_⟩⟩
      refine bind_eq_ok.2 ⟨localName, ?_, bind_eq_ok.2 ⟨value, ?_, rfl⟩⟩
      · rw [Decode.need_of_field? hlocal]
        rfl
      · rw [Decode.need_of_field? hright, hvalue.decode]
  | other =>
    have hop : Statement.other.toJson.normal.Has "op" (· = .str "other") := ⟨_, rfl, rfl⟩
    exact ⟨.inr (.inr hop), rfl⟩

/-! ## Declarations -/

theorem restores_body {body : Option (List Statement)}
    (h : ∀ s ∈ body.getD [], ∀ call ∈ s.invocation?, call.target.Admitted) :
    Restores (fun json => json = .null ∨ IsListOf IsStatement json)
      (Decode.optional (Decode.list Decode.statement)) (bodyToJson body) body := by
  cases body with
  | none => exact ⟨.inl rfl, rfl⟩
  | some statements =>
    -- a list is not null, so the optional decoder takes it for a list
    have hlist := restores_list fun s hs => Statement.restores (h s hs)
    refine ⟨.inr hlist.form, ?_⟩
    exact Decode.optional_arr.trans (bind_eq_ok.2 ⟨statements, hlist.decode, rfl⟩)

theorem MethodDecl.restores {m : MethodDecl} (h : m.Admitted) :
    Restores IsMethod Decode.method m.toJson m := by
  have hbody := restores_body fun s hs call hcall =>
    h.calls call (List.mem_filterMap.2 ⟨s, hs, hcall⟩)
  obtain ⟨found, hnormal, hfield⟩ := Json.exists_normal_obj
    [("name", .str m.sub.name), ("descriptor", .str m.sub.descriptor),
      ("static", .bool m.isStatic), ("body", bodyToJson m.body)]
  have hname : (Json.obj found).field? "name" = some (.str m.sub.name) := hfield "name"
  have hdescriptor : (Json.obj found).field? "descriptor" = some (.str m.sub.descriptor) :=
    hfield "descriptor"
  have hstatic : (Json.obj found).field? "static" = some (.bool m.isStatic) := hfield "static"
  have hbodyField : (Json.obj found).field? "body" = some (bodyToJson m.body).normal :=
    hfield "body"
  rw [← MethodDecl.toJson] at hnormal
  constructor
  · rw [hnormal]
    exact ⟨⟨_, hname, _, rfl, h.name⟩, ⟨_, hdescriptor, _, rfl, h.descriptor⟩,
      Json.mayHave_of_field? hstatic ⟨_, rfl⟩, Json.mayHave_of_field? hbodyField hbody.form⟩
  · rw [hnormal]
    refine bind_eq_ok.2 ⟨m.sub.name, Decode.need_of_field? hname, ?_⟩
    refine bind_eq_ok.2 ⟨m.sub.descriptor, Decode.need_of_field? hdescriptor, ?_⟩
    refine bind_eq_ok.2 ⟨m.isStatic, Decode.want_of_field? hstatic, ?_⟩
    exact bind_eq_ok.2 ⟨m.body, (Decode.want_of_field? hbodyField).trans hbody.decode, rfl⟩

theorem restores_superclass {superclass : Option ClassName}
    (h : ∀ name ∈ superclass, PlainName name) :
    Restores (fun json => json = .null ∨ IsClassName json) (Decode.optional Decode.text)
      (.ofOption .str superclass) superclass := by
  cases superclass with
  | none => exact ⟨.inl rfl, rfl⟩
  | some name => exact ⟨.inr ⟨name, rfl, h name rfl⟩, rfl⟩

theorem ClassDecl.restores {c : ClassDecl} (h : c.Admitted) :
    Restores IsClass Decode.classDecl c.toJson c := by
  have hsuperclass := restores_superclass h.superclass
  have hinterfaces : Restores (IsListOf IsClassName) (Decode.list Decode.text)
      (.strings c.interfaces) c.interfaces :=
    restores_list fun name hname => ⟨⟨name, rfl, h.interfaces name hname⟩, rfl⟩
  have hmethods := restores_list fun m hm => MethodDecl.restores (h.methods m hm)
  obtain ⟨found, hnormal, hfield⟩ := Json.exists_normal_obj
    [("name", .str c.name), ("superclass", .ofOption .str c.superclass),
      ("interfaces", .strings c.interfaces), ("interface", .bool c.isInterface),
      ("methods", .arr (c.methods.map MethodDecl.toJson))]
  have hname : (Json.obj found).field? "name" = some (.str c.name) := hfield "name"
  have hsuperclassField : (Json.obj found).field? "superclass" =
      some (Json.ofOption .str c.superclass).normal := hfield "superclass"
  have hinterfacesField : (Json.obj found).field? "interfaces" =
      some (Json.strings c.interfaces).normal := hfield "interfaces"
  have hinterface : (Json.obj found).field? "interface" = some (.bool c.isInterface) :=
    hfield "interface"
  have hmethodsField : (Json.obj found).field? "methods" =
      some (Json.arr (c.methods.map MethodDecl.toJson)).normal := hfield "methods"
  rw [← ClassDecl.toJson] at hnormal
  constructor
  · rw [hnormal]
    exact ⟨⟨_, hname, _, rfl, h.name⟩, Json.mayHave_of_field? hsuperclassField hsuperclass.form,
      Json.mayHave_of_field? hinterfacesField hinterfaces.form,
      Json.mayHave_of_field? hinterface ⟨_, rfl⟩,
      Json.mayHave_of_field? hmethodsField hmethods.form⟩
  · rw [hnormal]
    refine bind_eq_ok.2 ⟨found, rfl, ?_⟩
    refine bind_eq_ok.2 ⟨c.name, Decode.need_of_field? hname, ?_⟩
    refine bind_eq_ok.2 ⟨c.superclass,
      (Decode.want_of_field? hsuperclassField).trans hsuperclass.decode, ?_⟩
    refine bind_eq_ok.2 ⟨c.interfaces,
      (Decode.want_of_field? hinterfacesField).trans hinterfaces.decode, ?_⟩
    refine bind_eq_ok.2 ⟨c.isInterface, Decode.want_of_field? hinterface, ?_⟩
    exact bind_eq_ok.2 ⟨c.methods, (Decode.want_of_field? hmethodsField).trans hmethods.decode, rfl⟩

theorem documentToJson_restores {classes : List ClassDecl} (h : ∀ c ∈ classes, c.Admitted) :
    Restores IsDocument Decode.document (documentToJson classes) classes := by
  have hclasses := restores_list fun c hc => ClassDecl.restores (h c hc)
  obtain ⟨found, hnormal, hfield⟩ := Json.exists_normal_obj
    [("classes", .arr (classes.map ClassDecl.toJson))]
  have hclassesField : (Json.obj found).field? "classes" =
      some (Json.arr (classes.map ClassDecl.toJson)).normal := hfield "classes"
  rw [← documentToJson] at hnormal
  constructor
  · rw [hnormal]
    exact ⟨_, hclassesField, hclasses.form⟩
  · rw [hnormal]
    exact bind_eq_ok.2 ⟨found, rfl, (Decode.need_of_field? hclassesField).trans hclasses.decode⟩

/-! ## Texts -/

theorem Expression.plain (value : Expression) : Json.Plain 1 value.toJson := by
  cases value with
  | invoke call => exact .obj (by simp [Invocation.fields, Json.Plain.str])
  | other => exact .obj (by simp [Json.Plain.str])

theorem Statement.plain (s : Statement) : Json.Plain 2 s.toJson := by
  cases s with
  | invoke call => exact .obj (by simp [Invocation.fields, Json.Plain.str])
  | assign localName value => exact .obj (by simp [Json.Plain.str, value.plain])
  | other => exact .obj (by simp [Json.Plain.str])

theorem plain_bodyToJson (body : Option (List Statement)) : Json.Plain 3 (bodyToJson body) := by
  cases body with
  | none => exact .null
  | some statements => exact .arr (List.forall_mem_map.2 fun s _ => s.plain)

theorem MethodDecl.plain (m : MethodDecl) : Json.Plain 4 m.toJson :=
  .obj (by simp [Json.Plain.str, Json.Plain.bool, plain_bodyToJson])

theorem ClassDecl.plain (c : ClassDecl) : Json.Plain 6 c.toJson := by
  have hsuperclass : Json.Plain 5 (.ofOption .str c.superclass) := by
    cases c.superclass with
    | none => exact .null
    | some name => exact .str name
  have hinterfaces : Json.Plain 5 (.strings c.interfaces) :=
    .arr (List.forall_mem_map.2 fun name _ => .str name)
  have hmethods : Json.Plain 5 (.arr (c.methods.map MethodDecl.toJson)) :=
    .arr (List.forall_mem_map.2 fun m _ => m.plain)
  exact .obj (by simp [Json.Plain.str, Json.Plain.bool, hsuperclass, hinterfaces, hmethods])

theorem plain_documentToJson (classes : List ClassDecl) :
    Json.Plain 8 (documentToJson classes) := by
  have hclasses : Json.Plain 7 (.arr (classes.map ClassDecl.toJson)) :=
    .arr (List.forall_mem_map.2 fun c _ => c.plain)
  exact .obj (by simp [hclasses])

/-- **A document that was read is read again from its written form**, with the same classes. -/
theorem parseModel_documentToJson {text : String} {classes : List ClassDecl}
    (h : parseModel text = .ok classes) :
    parseModel (documentToJson classes).compact = .ok classes := by
  have hrestores := documentToJson_restores (admitted_of_parseModel h)
  obtain ⟨-, -, -, -, hdescriptors⟩ := parseModel_eq_ok.1 h
  refine parseModel_eq_ok.2 ⟨(documentToJson classes).normal, ?_, ?_, hrestores.decode,
    hdescriptors⟩
  · exact (plain_documentToJson classes).parse_compact (by decide)
  · exact modelSchema_iff.2 hrestores.form

/-- A document that leaves out what has a default and holds what is not asked for. -/
def sparseDocument : Json :=
  .obj [("version", .nat 1), ("classes", .arr [.obj [
    ("name", .str "App"), ("comment", .null),
    ("methods", .arr [
      .obj [("name", .str "run"), ("descriptor", .str "()V"), ("body", .arr [
        .obj [("op", .str "invoke"), ("target", .str "App.stop()V"), ("line", .nat 7)],
        .obj [("op", .str "assign"), ("local", .str "a\tb"),
          ("value", .obj [("op", .str "other")])]])],
      .obj [("descriptor", .str "()V"), ("name", .str "stop")]])]])]

/-- The classes that this document declares. -/
def sparseClasses : List ClassDecl :=
  [⟨"App", none, [], false, [
    ⟨⟨"run", "()V"⟩, false,
      some [.invoke ⟨⟨"App", "stop", "()V"⟩, .virtual⟩, .assign "a\tb" .other]⟩,
    ⟨⟨"stop", "()V"⟩, false, none⟩]⟩]

theorem parseModel_documentToJson_sparse :
    parseModel sparseDocument.compact = .ok sparseClasses ∧
      parseModel (documentToJson sparseClasses).compact = .ok sparseClasses := by
  have hsparse : parseModel sparseDocument.compact = .ok sparseClasses := by
    refine eq_ok_of_toOption ?_
    -- the characters come straight from the printer: to take them from a string is slow
    rw [parseModel, Json.parse, Json.compact, String.toList_ofList]
    decide +kernel
  exact ⟨hsparse, parseModel_documentToJson hsparse⟩

end DispatchGraph
