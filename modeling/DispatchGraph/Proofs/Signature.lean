import DispatchGraph.Signature
import DispatchGraph.Proofs.Descriptor
import Mathlib.Data.Set.Operations

/-!
# Signatures and their written forms

The written form of a signature does not say where its parts end, so only some signatures can be
read back: those whose class is not empty and holds no parenthesis, whose name is not empty and
holds neither a parenthesis nor a dot, and whose descriptor is one (`Signature.Readable`). Reading
accepts the written forms of these and nothing else (`Signature.parse_eq_ok`). The conditions on the
class (`ReadableOwner`) and on the rest (`SubSignature.Readable`) are apart from each other, so a
signature stays readable when it moves to another class (`Signature.Readable.rebase`). Hence written
forms tell apart all signatures that were read, and those moved to other classes
(`Signature.reading_exact`).
-/

namespace DispatchGraph

/-! ## Cutting at the last separator -/

theorem splitLast?_eq_none {separator : Char} {cs : List Char} :
    splitLast? separator cs = none ↔ separator ∉ cs := by
  induction cs with
  | nil => simp [splitLast?]
  | cons c cs ih =>
    rw [splitLast?, List.mem_cons, not_or, ← ih]
    cases splitLast? separator cs with
    | some parts => simp
    | none => simp [eq_comm]

theorem splitLast?_append {separator : Char} {before after : List Char} (h : separator ∉ after) :
    splitLast? separator (before ++ separator :: after) = some (before, after) := by
  induction before with
  | nil => simp [splitLast?, splitLast?_eq_none.2 h]
  | cons c before ih => rw [List.cons_append, splitLast?, ih]

theorem splitLast?_eq_some {separator : Char} {cs before after : List Char} :
    splitLast? separator cs = some (before, after) ↔
      cs = before ++ separator :: after ∧ separator ∉ after := by
  refine ⟨fun h => ?_, fun ⟨heq, hafter⟩ => heq ▸ splitLast?_append hafter⟩
  induction cs generalizing before with
  | nil => simp [splitLast?] at h
  | cons c cs ih =>
    rw [splitLast?] at h
    cases hcs : splitLast? separator cs with
    | some parts =>
      obtain ⟨before', after'⟩ := parts
      obtain ⟨rfl, rfl⟩ : c :: before' = before ∧ after' = after := by simpa [hcs] using h
      obtain ⟨rfl, hafter⟩ := ih hcs
      exact ⟨rfl, hafter⟩
    | none =>
      obtain ⟨rfl, rfl, rfl⟩ : c = separator ∧ [] = before ∧ cs = after := by simpa [hcs] using h
      exact ⟨rfl, splitLast?_eq_none.1 hcs⟩

/-! ## Signatures that can be read -/

/-- The name of a class with which a signature can be read. -/
structure ReadableOwner (owner : ClassName) : Prop where
  ne_empty : owner ≠ ""
  no_paren : '(' ∉ owner.toList

/-- A sub-signature with which a signature can be read. -/
structure SubSignature.Readable (s : SubSignature) : Prop where
  ne_empty : s.name ≠ ""
  no_paren : '(' ∉ s.name.toList
  no_dot : '.' ∉ s.name.toList
  descriptor : ∃ types, MethodDescriptor.parse s.descriptor = .ok types

/-- A signature that can be read from its written form. -/
structure Signature.Readable (s : Signature) : Prop where
  owner : ReadableOwner s.owner
  sub : s.sub.Readable

namespace Signature

theorem Readable.rebase {s : Signature} {owner : ClassName} (h : s.Readable)
    (howner : ReadableOwner owner) : (s.rebase owner).Readable := ⟨howner, h.sub⟩

theorem toList_text (s : Signature) :
    s.text.toList = (s.owner.toList ++ '.' :: s.sub.name.toList) ++ s.sub.descriptor.toList := by
  simp [text, SubSignature.text]

/-- The descriptor begins at the first parenthesis of the written form, and what stands before it
ends with the name. -/
theorem Readable.parse_text {s : Signature} (h : s.Readable) : parse s.text = .ok s := by
  obtain ⟨howner, hsub⟩ := h
  obtain ⟨types, htypes⟩ := hsub.descriptor
  obtain ⟨cs, hcs⟩ := MethodDescriptor.toList_of_parse htypes
  have hfree : '(' ∉ s.owner.toList ++ '.' :: s.sub.name.toList := by
    simp [howner.no_paren, hsub.no_paren]
  have htake : s.text.toList.takeWhile (· != '(') =
      s.owner.toList ++ '.' :: s.sub.name.toList := by
    rw [toList_text, hcs, takeWhile_ne_separator hfree]
  have hdrop : s.text.toList.dropWhile (· != '(') = s.sub.descriptor.toList := by
    rw [toList_text, hcs, dropWhile_ne_separator hfree]
  have hne : s.sub.descriptor.toList ≠ [] := by simp [hcs]
  have hparts : ¬ (s.owner.toList = [] ∨ s.sub.name.toList = []) := by
    simp [howner.ne_empty, hsub.ne_empty]
  simp only [parse, htake, hdrop, if_neg hne, splitLast?_append hsub.no_dot, if_neg hparts,
    String.ofList_toList, htypes]

/-- Readable signatures with the same written form are equal. -/
theorem Readable.text_inj {s t : Signature} (hs : s.Readable) (ht : t.Readable)
    (htext : s.text = t.text) : s = t :=
  Except.ok.inj (hs.parse_text.symm.trans ((congrArg parse htext).trans ht.parse_text))

theorem readable_of_parse {text : String} {s : Signature} (h : parse text = .ok s) :
    text = s.text ∧ s.Readable := by
  rw [parse] at h
  set qualified := text.toList.takeWhile (· != '(')
  set descriptor := text.toList.dropWhile (· != '(')
  have htext : text.toList = qualified ++ descriptor := List.takeWhile_append_dropWhile.symm
  have hfree : '(' ∉ qualified := fun hmem => by simpa using List.mem_takeWhile_imp hmem
  split at h
  · contradiction
  · split at h
    · contradiction
    · rename_i owner name hsplit
      obtain ⟨hcut, hdot⟩ := splitLast?_eq_some.1 hsplit
      split at h
      · contradiction
      · rename_i hparts
        split at h
        · contradiction
        · rename_i types htypes
          obtain rfl := Except.ok.inj h
          obtain ⟨howner, hname⟩ := not_or.1 hparts
          rw [hcut] at htext hfree
          obtain ⟨hfreeOwner, hfreeName⟩ : '(' ∉ owner ∧ '(' ∉ name := by simpa using hfree
          refine ⟨String.toList_inj.1 ?_, ⟨?_, ?_⟩, ?_, ?_, ?_, types, htypes⟩
          · simp [htext, toList_text]
          · simpa using howner
          · simpa using hfreeOwner
          · simpa using hname
          · simpa using hfreeName
          · simpa using hdot

/-- **Reading accepts the written forms of readable signatures and nothing else.** -/
theorem parse_eq_ok {text : String} {s : Signature} :
    parse text = .ok s ↔ text = s.text ∧ s.Readable := by
  refine ⟨readable_of_parse, ?_⟩
  rintro ⟨rfl, hreadable⟩
  exact hreadable.parse_text

/-- **A signature is read from its written form and from no other text.** What can be read is told
apart by its written form, and is read back from it; in another class it is read back if and only if
the name of that class allows it. -/
theorem reading_exact :
    (∀ written s, parse written = .ok s ↔ written = s.text ∧ s.Readable) ∧
    Set.InjOn text {s | ∃ written, parse written = .ok s} ∧
    (∀ written s, parse written = .ok s → parse s.text = .ok s) ∧
    ∀ written s owner, parse written = .ok s →
      (parse (s.rebase owner).text = .ok (s.rebase owner) ↔ ReadableOwner owner) := by
  refine ⟨fun _ _ => parse_eq_ok, ?_, ?_, ?_⟩
  · rintro s ⟨written, hs⟩ t ⟨written', ht⟩ htext
    exact (readable_of_parse hs).2.text_inj (readable_of_parse ht).2 htext
  · intro written s hs
    exact (readable_of_parse hs).2.parse_text
  · intro written s owner hs
    constructor
    · intro hrebased
      exact (readable_of_parse hrebased).2.owner
    · intro howner
      exact ((readable_of_parse hs).2.rebase howner).parse_text

/-- Signatures that cannot be read may have the same written form. -/
example : (⟨"a.B", "run", "()V"⟩ : Signature).text = (⟨"a", "B.run", "()V"⟩ : Signature).text := by
  decide

end Signature

end DispatchGraph
