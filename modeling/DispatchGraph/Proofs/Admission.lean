import DispatchGraph.Proofs.Decoding
import Mathlib.Data.List.Forall2

/-!
# Decoding values that have the format

The format of model documents and the decoder were written apart from each other. They agree: a
value that has the format decodes, unless the target of a call is no signature, and then decoding
fails at the first such target (`Decode.Outcome`). One lemma for each decoder says so, up to whole
documents (`Decode.outcome_document`). The targets and the declared descriptors are those that stand
in the value, read off without the decoder (`callTargets`, `declaredDescriptors`). What is decoded
has the names that the format asks for (`ClassDecl.Admitted`).
-/

namespace DispatchGraph

/-! ## Calls and descriptors of documents -/

namespace Json

/-- The text in a field. -/
def textAt (value : Json) (name : String) : Option String := (value.field? name).bind str?

/-- The items of the list in a field; none if no list is there. -/
def itemsAt (value : Json) (name : String) : List Json := ((value.field? name).bind arr?).getD []

end Json

/-- The target that a value names if it is a call. -/
def invokedTarget? (value : Json) : Option String :=
  if value.textAt "op" = some "invoke" then value.textAt "target" else none

/-- The target of the call that a statement makes, by itself or on the right of an assignment. -/
def statementTarget? (statement : Json) : Option String :=
  if statement.textAt "op" = some "assign" then (statement.field? "value").bind invokedTarget?
  else invokedTarget? statement

/-- The targets of the calls in the body of a method, in order. -/
def bodyTargets (method : Json) : List String :=
  (method.itemsAt "body").filterMap statementTarget?

/-- The method declarations of a document, in order. -/
def declaredMethods (document : Json) : List Json :=
  (document.itemsAt "classes").flatMap fun c => c.itemsAt "methods"

/-- The targets of all calls in a document, in order. -/
def callTargets (document : Json) : List String := (declaredMethods document).flatMap bodyTargets

/-- The descriptors of all methods that a document declares, in order. -/
def declaredDescriptors (document : Json) : List String :=
  (declaredMethods document).filterMap fun method => method.textAt "descriptor"

/-- The text can be read as a signature. -/
def IsSignature (text : String) : Prop := ∃ s, Signature.parse text = .ok s

/-- The text can be read as a descriptor. -/
def IsDescriptor (text : String) : Prop := ∃ types, MethodDescriptor.parse text = .ok types

section

variable {value right : Json} {name : String}

theorem textAt_of_has {text : String} (h : value.Has name (· = .str text)) :
    value.textAt name = some text := by
  obtain ⟨_, hfield, rfl⟩ := h
  rw [Json.textAt, hfield]
  rfl

theorem itemsAt_of_field? {items : List Json} (h : value.field? name = some (.arr items)) :
    value.itemsAt name = items := by
  rw [Json.itemsAt, h]
  rfl

theorem exists_of_mem_itemsAt {item : Json} (h : item ∈ value.itemsAt name) :
    ∃ items, value.field? name = some (.arr items) ∧ item ∈ items := by
  rw [Json.itemsAt] at h
  cases hfield : value.field? name with
  | none => simp [hfield] at h
  | some field =>
    cases field with
    | arr items => exact ⟨items, rfl, by simpa [hfield, Json.arr?] using h⟩
    | _ => simp [hfield, Json.arr?] at h

theorem invokedTarget?_of_invoke (h : Format.IsInvoke value) :
    invokedTarget? value = value.textAt "target" := by
  rw [invokedTarget?, if_pos (textAt_of_has h.op)]

theorem invokedTarget?_of_other (h : Format.IsOther value) : invokedTarget? value = none := by
  rw [invokedTarget?, textAt_of_has h, if_neg (by decide)]

theorem statementTarget?_of_invoke (h : Format.IsInvoke value) :
    statementTarget? value = invokedTarget? value := by
  rw [statementTarget?, textAt_of_has h.op, if_neg (by decide)]

theorem statementTarget?_of_assign (h : Format.IsAssign value)
    (hright : value.field? "value" = some right) :
    statementTarget? value = invokedTarget? right := by
  rw [statementTarget?, if_pos (textAt_of_has h.op), hright, Option.bind_some]

theorem statementTarget?_of_other (h : Format.IsOther value) : statementTarget? value = none := by
  rw [statementTarget?, textAt_of_has h, if_neg (by decide), invokedTarget?_of_other h]

theorem looks_of_invokedTarget? {target : String} (h : Format.IsRightSide value)
    (htarget : invokedTarget? value = some target) :
    Format.signaturePattern.isMatch target = true := by
  rcases h with h | h
  · obtain ⟨_, hfield, text, rfl, hlooks⟩ := h.target
    rw [invokedTarget?_of_invoke h, textAt_of_has ⟨_, hfield, rfl⟩] at htarget
    rwa [← Option.some.inj htarget]
  · rw [invokedTarget?_of_other h] at htarget
    contradiction

theorem looks_of_statementTarget? {target : String} (h : Format.IsStatement value)
    (htarget : statementTarget? value = some target) :
    Format.signaturePattern.isMatch target = true := by
  rcases h with h | h | h
  · rw [statementTarget?_of_invoke h] at htarget
    exact looks_of_invokedTarget? (.inl h) htarget
  · obtain ⟨right, hright, hvalue⟩ := h.value
    rw [statementTarget?_of_assign h hright] at htarget
    exact looks_of_invokedTarget? hvalue htarget
  · rw [statementTarget?_of_other h] at htarget
    contradiction

/-- The targets of the calls in a document look like signatures. -/
theorem looks_of_mem_callTargets {target : String} (h : Format.IsDocument value)
    (htarget : target ∈ callTargets value) : Format.signaturePattern.isMatch target = true := by
  obtain ⟨method, hmethod, htarget⟩ := List.mem_flatMap.1 htarget
  obtain ⟨c, hc, hmethod⟩ := List.mem_flatMap.1 hmethod
  obtain ⟨statement, hstatement, htarget⟩ := List.mem_filterMap.1 htarget
  obtain ⟨_, hclasses, hc⟩ := exists_of_mem_itemsAt hc
  obtain ⟨_, hmethods, hmethod⟩ := exists_of_mem_itemsAt hmethod
  obtain ⟨_, hbody, hstatement⟩ := exists_of_mem_itemsAt hstatement
  have hclass : Format.IsClass c := ((Json.has_iff.1 h).2 _ hclasses).of_mem hc
  have hmethod : Format.IsMethod method := (hclass.methods _ hmethods).of_mem hmethod
  rcases hmethod.body _ hbody with hnull | hlist
  · contradiction
  · exact looks_of_statementTarget? (hlist.of_mem hstatement) htarget

end

/-! ## Declarations that documents may hold -/

/-- The target of a call that a document may hold. -/
structure Signature.Admitted (s : Signature) : Prop where
  readable : s.Readable
  looks : Format.signaturePattern.isMatch s.text = true

/-- A method that a document may declare. -/
structure MethodDecl.Admitted (m : MethodDecl) : Prop where
  name : m.sub.name ≠ ""
  descriptor : Format.descriptorPattern.isMatch m.sub.descriptor = true
  calls : ∀ call ∈ m.calls, call.target.Admitted

/-- A class that a document may declare. -/
structure ClassDecl.Admitted (c : ClassDecl) : Prop where
  name : PlainName c.name
  superclass : ∀ name ∈ c.superclass, PlainName name
  interfaces : ∀ name ∈ c.interfaces, PlainName name
  methods : ∀ m ∈ c.methods, m.Admitted

/-! ## Outcomes -/

theorem exists_of_mem_forall₂ {α β : Type} {R : α → β → Prop} {xs : List α} {ys : List β}
    (h : List.Forall₂ R xs ys) {y : β} (hy : y ∈ ys) : ∃ x ∈ xs, R x y := by
  induction h with
  | nil => simp at hy
  | @cons x _ _ _ hxy _ ih =>
    rcases List.mem_cons.1 hy with rfl | hy
    · exact ⟨x, List.mem_cons_self, hxy⟩
    · obtain ⟨x', hx', hxy⟩ := ih hy
      exact ⟨x', List.mem_cons_of_mem x hx', hxy⟩

namespace Decode

/-- How decoding a value goes in which calls have these targets: to something that satisfies `P` if
all of them are signatures, and otherwise to an error at the first one that is none. -/
inductive Outcome {α : Type} (P : α → Prop) : List String → Decoded α → Prop where
  | ok {targets : List String} {a : α} (htargets : ∀ target ∈ targets, IsSignature target)
    (ha : P a) : Outcome P targets (.ok a)
  | error {before after : List String} {target : String} {error : Signature.Error}
    (hbefore : ∀ target ∈ before, IsSignature target)
    (htarget : Signature.parse target = .error error) :
    Outcome P (before ++ target :: after) (.error (.target error))

variable {α β : Type} {P P' : α → Prop} {Q : β → Prop} {x : Decoded α} {f : α → Decoded β}
  {decode : Json → Decoded α} {targets more : List String}

namespace Outcome

theorem pure {a : α} (ha : P a) : Outcome P [] (.ok a) := .ok (by simp) ha

theorem bind (hx : Outcome P targets x) (hf : ∀ a, P a → Outcome Q more (f a)) :
    Outcome Q (targets ++ more) (x >>= f) := by
  cases hx with
  | @ok _ a htargets ha =>
    change Outcome Q (targets ++ more) (f a)
    have hfa := hf a ha
    generalize f a = y at hfa ⊢
    cases hfa with
    | ok hmore hb => exact .ok (List.forall_mem_append.2 ⟨htargets, hmore⟩) hb
    | error hbefore htarget =>
      rw [← List.append_assoc]
      exact .error (List.forall_mem_append.2 ⟨htargets, hbefore⟩) htarget
  | error hbefore htarget =>
    -- the second step is never made, so its targets only follow the one that failed
    rw [List.append_assoc]
    exact .error hbefore htarget

/-- A step without calls leaves the targets to what follows. -/
theorem andThen (hx : Outcome P [] x) (hf : ∀ a, P a → Outcome Q more (f a)) :
    Outcome Q more (x >>= f) :=
  hx.bind hf

theorem of_eq_ok {a : α} (h : Outcome P targets x) (hx : x = .ok a) :
    (∀ target ∈ targets, IsSignature target) ∧ P a := by
  cases h with
  | ok htargets ha =>
    obtain rfl := Except.ok.inj hx
    exact ⟨htargets, ha⟩
  | error => contradiction

theorem of_eq_error {error : DecodeError} (h : Outcome P targets x) (hx : x = .error error) :
    ∃ before target after cause, targets = before ++ target :: after ∧
      (∀ earlier ∈ before, IsSignature earlier) ∧ Signature.parse target = .error cause ∧
      error = .target cause := by
  cases h with
  | ok => contradiction
  | error hbefore htarget =>
    exact ⟨_, _, _, _, rfl, hbefore, htarget, (Except.error.inj hx).symm⟩

theorem exists_ok_iff (h : Outcome P targets x) :
    (∃ a, x = .ok a) ↔ ∀ target ∈ targets, IsSignature target := by
  constructor
  · rintro ⟨a, hx⟩
    exact (h.of_eq_ok hx).1
  · intro htargets
    cases h with
    | ok _ _ => exact ⟨_, rfl⟩
    | error _ htarget =>
      obtain ⟨s, hs⟩ := htargets _ List.mem_append_cons_self
      rw [htarget] at hs
      contradiction

theorem imp (hx : Outcome P targets x) (h : ∀ a, P a → P' a) : Outcome P' targets x := by
  cases hx with
  | ok htargets ha => exact .ok htargets (h _ ha)
  | error hbefore htarget => exact .error hbefore htarget

theorem map {g : α → β} (hx : Outcome P targets x) (hg : ∀ a, P a → Q (g a)) :
    Outcome Q targets (x >>= fun a => .ok (g a)) := by
  have h : Outcome Q (targets ++ []) (x >>= fun a => .ok (g a)) :=
    hx.bind fun a ha => pure (hg a ha)
  rwa [List.append_nil] at h

/-- A list; the first item that fails decides. -/
theorem list {P : Json → α → Prop} {targets : Json → List String} {items : List Json}
    (h : ∀ item ∈ items, Outcome (P item) (targets item) (decode item)) :
    Outcome (List.Forall₂ P items) (items.flatMap targets) (Decode.list decode (.arr items)) := by
  rw [Decode.list]
  induction items with
  | nil => exact pure .nil
  | cons item items ih =>
    obtain ⟨hitem, hitems⟩ := List.forall_mem_cons.1 h
    rw [List.mapM_cons, List.flatMap_cons]
    exact hitem.bind fun a ha => (ih hitems).map fun as has => .cons ha has

theorem list_all {targets : Json → List String} {items : List Json}
    (h : ∀ item ∈ items, Outcome P (targets item) (decode item)) :
    Outcome (fun xs => ∀ x ∈ xs, P x) (items.flatMap targets)
      (Decode.list decode (.arr items)) := by
  refine (Outcome.list h).imp fun xs hxs x hx => ?_
  obtain ⟨_, -, hP⟩ := exists_of_mem_forall₂ hxs hx
  exact hP

end Outcome

/-! ## Fields and lists -/

variable {fields : List (String × Json)} {name : String} {field : Json}

theorem Outcome.need (hfield : (Json.obj fields).field? name = some field)
    (h : Outcome P targets (decode field)) : Outcome P targets (need decode fields name) := by
  rwa [need_of_field? hfield]

theorem Outcome.want {default : α}
    (hnone : (Json.obj fields).field? name = none → Outcome P targets (.ok default))
    (hsome : ∀ field, (Json.obj fields).field? name = some field →
      Outcome P targets (decode field)) :
    Outcome P targets (want default decode fields name) := by
  cases hfield : (Json.obj fields).field? name with
  | none =>
    rw [want_of_none hfield]
    exact hnone hfield
  | some field =>
    rw [want_of_field? hfield]
    exact hsome field hfield

/-! ## Statements -/

theorem outcome_signature {text : String} (hlooks : Format.signaturePattern.isMatch text = true) :
    Outcome Signature.Admitted [text] (signature (.str text)) := by
  rw [signature]
  cases hparse : Signature.parse text with
  | error error =>
    have hnone : ∀ target ∈ ([] : List String), IsSignature target := by simp
    exact .error hnone hparse
  | ok s =>
    obtain ⟨rfl, hreadable⟩ := Signature.readable_of_parse hparse
    refine .ok ?_ ⟨hreadable, hlooks⟩
    rw [List.forall_mem_singleton]
    exact ⟨s, hparse⟩

theorem outcome_invocation (h : Format.IsInvoke (.obj fields)) :
    Outcome (fun call => call.target.Admitted) (invokedTarget? (.obj fields)).toList
      (invocation (.obj fields)) := by
  obtain ⟨_, hfield, text, rfl, hlooks⟩ := h.target
  have htarget : Outcome Signature.Admitted [text] (need signature fields "target") :=
    .need hfield (outcome_signature hlooks)
  have hkind : Outcome (fun _ => True) [] (want .virtual callKind fields "kind") := by
    refine .want (fun _ => .pure trivial) fun field hfield => ?_
    obtain ⟨kind, rfl⟩ := h.kind field hfield
    cases kind <;> exact .pure trivial
  have hcall : Outcome (fun call => call.target.Admitted) ([text] ++ [])
      (invocation (.obj fields)) :=
    htarget.bind fun target htarget => hkind.map fun kind _ => htarget
  rwa [invokedTarget?_of_invoke h, textAt_of_has ⟨_, hfield, rfl⟩]

theorem outcome_expression {value : Json} (h : Format.IsRightSide value) :
    Outcome (fun expression => ∀ call, expression = .invoke call → call.target.Admitted)
      (invokedTarget? value).toList (expression value) := by
  rcases h with h | h
  · obtain ⟨fields, rfl⟩ := h.op.exists_fields
    rw [expression, tagged_obj h.op rfl]
    refine (outcome_invocation h).map fun call hcall call' heq => ?_
    obtain rfl := Expression.invoke.inj heq
    exact hcall
  · obtain ⟨fields, rfl⟩ := h.exists_fields
    rw [expression, tagged_obj h rfl, invokedTarget?_of_other h]
    exact .pure (by simp)

theorem outcome_statement {value : Json} (h : Format.IsStatement value) :
    Outcome (fun statement => ∀ call ∈ statement.invocation?, call.target.Admitted)
      (statementTarget? value).toList (statement value) := by
  rcases h with h | h | h
  · obtain ⟨fields, rfl⟩ := h.op.exists_fields
    rw [statement, tagged_obj h.op rfl, statementTarget?_of_invoke h]
    refine (outcome_invocation h).map fun call hcall call' heq => ?_
    obtain rfl := Option.some.inj heq
    exact hcall
  · obtain ⟨fields, rfl⟩ := h.op.exists_fields
    obtain ⟨_, hlocal, localName, rfl⟩ := h.localName
    obtain ⟨right, hright, hvalue⟩ := h.value
    have hname : Outcome (fun _ => True) [] (need text fields "local") :=
      .need hlocal (.pure trivial)
    have hexpression := Outcome.need hright (outcome_expression hvalue)
    rw [statement, tagged_obj h.op rfl, statementTarget?_of_assign h hright]
    refine hname.andThen fun localName _ => hexpression.map fun expression hcalls call hcall => ?_
    cases expression with
    | invoke call' =>
      obtain rfl := Option.some.inj hcall
      exact hcalls call' rfl
    | other => contradiction
  · obtain ⟨fields, rfl⟩ := h.exists_fields
    rw [statement, tagged_obj h rfl, statementTarget?_of_other h]
    exact .pure (by simp [Statement.invocation?])

/-! ## Declarations -/

theorem outcome_flag {default : Bool}
    (h : (Json.obj fields).MayHave name fun field => ∃ flag, field = .bool flag) :
    Outcome (fun _ => True) [] (want default flag fields name) := by
  refine .want (fun _ => .pure trivial) fun field hfield => ?_
  obtain ⟨flag, rfl⟩ := h field hfield
  exact .pure trivial

theorem outcome_body (h : (Json.obj fields).MayHave "body" fun field =>
      field = .null ∨ Format.IsListOf Format.IsStatement field) :
    Outcome (fun body => ∀ statement ∈ body.getD [], ∀ call ∈ statement.invocation?,
        call.target.Admitted)
      (bodyTargets (.obj fields)) (want none (optional (list statement)) fields "body") := by
  refine .want (fun hnone => ?_) fun field hfield => ?_
  · rw [bodyTargets, Json.itemsAt, hnone]
    exact .pure (by simp)
  · rcases h field hfield with rfl | ⟨items, rfl, hitems⟩
    · rw [bodyTargets, Json.itemsAt, hfield]
      exact .pure (by simp)
    · rw [bodyTargets, itemsAt_of_field? hfield, List.filterMap_eq_flatMap_toList, optional_arr]
      exact (Outcome.list_all fun item hitem => outcome_statement (hitems item hitem)).map
        fun _ hstatements => hstatements

/-- What a value and the method that is decoded from it have in common. -/
structure DecodesMethod (value : Json) (m : MethodDecl) : Prop where
  admitted : m.Admitted
  descriptor : value.textAt "descriptor" = some m.sub.descriptor

theorem outcome_method {value : Json} (h : Format.IsMethod value) :
    Outcome (DecodesMethod value) (bodyTargets value) (method value) := by
  obtain ⟨fields, rfl⟩ := h.name.exists_fields
  obtain ⟨_, hnameField, name, rfl, hname⟩ := h.name
  obtain ⟨_, hdescriptorField, descriptor, rfl, hdescriptor⟩ := h.descriptor
  have hneedName : Outcome (· ≠ "") [] (need text fields "name") := .need hnameField (.pure hname)
  have hneedDescriptor : Outcome (· = descriptor) [] (need text fields "descriptor") :=
    .need hdescriptorField (.pure rfl)
  -- of the four fields only the body has calls
  refine hneedName.andThen fun name hname => hneedDescriptor.andThen fun _ heq =>
    (outcome_flag h.static).andThen fun _ _ => (outcome_body h.body).map fun body hbody => ?_
  subst heq
  refine ⟨⟨hname, hdescriptor, fun call hcall => ?_⟩, textAt_of_has ⟨_, hdescriptorField, rfl⟩⟩
  obtain ⟨statement, hstatement, hinvoke⟩ := List.mem_filterMap.1 hcall
  exact hbody statement hstatement call hinvoke

/-- What a value and the class that is decoded from it have in common. -/
structure DecodesClass (value : Json) (c : ClassDecl) : Prop where
  admitted : c.Admitted
  methods : List.Forall₂ DecodesMethod (value.itemsAt "methods") c.methods

theorem outcome_superclass (h : (Json.obj fields).MayHave "superclass" fun field =>
      field = .null ∨ Format.IsClassName field) :
    Outcome (fun superclass => ∀ name ∈ superclass, PlainName name) []
      (want none (optional text) fields "superclass") := by
  refine .want (fun _ => .pure (by simp)) fun field hfield => ?_
  rcases h field hfield with rfl | ⟨name, rfl, hname⟩
  · exact .pure (by simp)
  · exact .pure (by simpa using hname)

theorem outcome_interfaces
    (h : (Json.obj fields).MayHave "interfaces" (Format.IsListOf Format.IsClassName)) :
    Outcome (fun interfaces => ∀ name ∈ interfaces, PlainName name) []
      (want [] (list text) fields "interfaces") := by
  refine .want (fun _ => .pure (by simp)) fun field hfield => ?_
  obtain ⟨items, rfl, hitems⟩ := h field hfield
  have hnames : ∀ item ∈ items, Outcome PlainName [] (text item) := by
    intro item hitem
    obtain ⟨name, rfl, hname⟩ := hitems item hitem
    exact .pure hname
  have hnone : (items.flatMap fun _ => ([] : List String)) = [] :=
    List.flatMap_eq_nil_iff.2 fun _ _ => rfl
  have hlist := Outcome.list_all hnames
  rwa [hnone] at hlist

theorem outcome_methods
    (h : (Json.obj fields).MayHave "methods" (Format.IsListOf Format.IsMethod)) :
    Outcome (List.Forall₂ DecodesMethod ((Json.obj fields).itemsAt "methods"))
      (((Json.obj fields).itemsAt "methods").flatMap bodyTargets)
      (want [] (list method) fields "methods") := by
  refine .want (fun hnone => ?_) fun field hfield => ?_
  · rw [Json.itemsAt, hnone]
    exact .pure .nil
  · obtain ⟨items, rfl, hitems⟩ := h field hfield
    rw [itemsAt_of_field? hfield]
    exact .list fun item hitem => outcome_method (hitems item hitem)

theorem outcome_classDecl {value : Json} (h : Format.IsClass value) :
    Outcome (DecodesClass value) ((value.itemsAt "methods").flatMap bodyTargets)
      (classDecl value) := by
  obtain ⟨fields, rfl⟩ := h.name.exists_fields
  obtain ⟨_, hnameField, name, rfl, hname⟩ := h.name
  have hneedName : Outcome PlainName [] (need text fields "name") := .need hnameField (.pure hname)
  refine hneedName.andThen fun name hname =>
    (outcome_superclass h.superclass).andThen fun superclass hsuperclass =>
    (outcome_interfaces h.interfaces).andThen fun interfaces hinterfaces =>
    (outcome_flag h.interface).andThen fun _ _ =>
    (outcome_methods h.methods).map fun methods hmethods => ?_
  refine ⟨⟨hname, hsuperclass, hinterfaces, fun m hm => ?_⟩, hmethods⟩
  obtain ⟨_, -, hmethod⟩ := exists_of_mem_forall₂ hmethods hm
  exact hmethod.admitted

/-- **A value that has the format decodes unless the target of a call is no signature.** -/
theorem outcome_document {value : Json} (h : Format.IsDocument value) :
    Outcome (List.Forall₂ DecodesClass (value.itemsAt "classes")) (callTargets value)
      (document value) := by
  obtain ⟨fields, rfl⟩ := h.exists_fields
  obtain ⟨_, hfield, items, rfl, hitems⟩ := h
  rw [callTargets, declaredMethods, List.flatMap_assoc, itemsAt_of_field? hfield]
  exact .need hfield (.list fun item hitem => outcome_classDecl (hitems item hitem))

end Decode

end DispatchGraph
