import DispatchGraph.Descriptor
import Mathlib.Data.List.TakeWhile

/-!
# Descriptors and their written forms

The written forms of descriptors have a grammar of their own (`DescriptorText`): parameter types
between parentheses, none of them exactly `V`, and a return type. Reading accepts this grammar and
nothing else, and gives the descriptor whose written form the text is
(`MethodDescriptor.parse_exact`).

Each reader takes the written form of one value off the front of a text and leaves the rest as it
is, and it takes only written forms (`readElement_eq_ok`, `readArray_eq_ok`, `readType_eq_ok`,
`readParameters_eq_ok`, `MethodDescriptor.read_eq_ok`). What it gives is well formed: names of
objects hold no semicolon, and arrays have between 1 and `maxDimensions` dimensions. Conversely
every well-formed value is read back, whatever follows, because a semicolon ends a name and no type
begins as the next part of a descriptor does. So the descriptor read from the front of a text is
written as the text if and only if nothing is left over (`MethodDescriptor.text_eq_iff`), and that
is how `MethodDescriptor.parse` finds out.
-/

namespace DispatchGraph

/-! ## The grammar -/

/-- Texts of types that are not arrays: a letter, or a name without semicolon between `L` and a
semicolon. -/
inductive ElementText : List Char → Prop
  | letter {c : Char} (hc : c ∈ ['Z', 'B', 'C', 'S', 'I', 'J', 'F', 'D', 'V']) : ElementText [c]
  | object {name : List Char} (hname : ';' ∉ name) : ElementText ('L' :: (name ++ [';']))

/-- Texts of types: an element type, with at most `maxDimensions` brackets before it. -/
inductive TypeText : List Char → Prop
  | element {cs : List Char} (hcs : ElementText cs) : TypeText cs
  | array {n : Nat} {cs : List Char} (hpos : 1 ≤ n) (hmax : n ≤ maxDimensions)
      (hcs : ElementText cs) : TypeText (List.replicate n '[' ++ cs)

/-- Texts of parameters: any number of types, none of them exactly `V`. -/
inductive ParametersText : List Char → Prop
  | nil : ParametersText []
  | cons {t cs : List Char} (ht : TypeText t) (hvoid : t ≠ ['V']) (hcs : ParametersText cs) :
      ParametersText (t ++ cs)

/-- Texts of method descriptors. -/
inductive DescriptorText : List Char → Prop
  | mk {params result : List Char} (hparams : ParametersText params) (hresult : TypeText result) :
      DescriptorText ('(' :: (params ++ ')' :: result))

/-! ## Well-formed values -/

/-- The name of an object type holds no semicolon. -/
def ElementType.WellFormed : ElementType → Prop
  | object name => ';' ∉ name.toList
  | _ => True

/-- The element type is well formed, and an array has an allowed number of dimensions. -/
def TypeDescriptor.WellFormed : TypeDescriptor → Prop
  | element type => type.WellFormed
  | array type dimensions => type.WellFormed ∧ 1 ≤ dimensions ∧ dimensions ≤ maxDimensions

/-- All types of the descriptor are well formed. -/
structure MethodDescriptor.Decodable (d : MethodDescriptor) : Prop where
  params : ∀ t ∈ d.params, t.WellFormed
  result : d.result.WellFormed

/-- All types of the descriptor are well formed, and no parameter is `void`. -/
structure MethodDescriptor.WellFormed (d : MethodDescriptor) : Prop extends d.Decodable where
  no_void : .element .void ∉ d.params

/-! ## Reading element types -/

section

variable {separator : Char} {before : List Char}

theorem takeWhile_ne_separator (h : separator ∉ before) (rest : List Char) :
    (before ++ separator :: rest).takeWhile (· != separator) = before := by
  rw [List.takeWhile_append_of_pos fun c hc => bne_iff_ne.2 (ne_of_mem_of_not_mem hc h)]
  simp

theorem dropWhile_ne_separator (h : separator ∉ before) (rest : List Char) :
    (before ++ separator :: rest).dropWhile (· != separator) = separator :: rest := by
  rw [List.dropWhile_append_of_pos fun c hc => bne_iff_ne.2 (ne_of_mem_of_not_mem hc h)]
  simp

end

theorem ElementType.chars_of_ofLetter? {c : Char} {t : ElementType} (h : ofLetter? c = some t) :
    t.WellFormed ∧ t.chars = [c] := by
  unfold ofLetter? at h
  split at h
  case h_10 => contradiction
  all_goals
    obtain rfl := Option.some.inj h
    exact ⟨trivial, rfl⟩

theorem readElement_object {closed : DescriptorFault} {name : String} (hname : ';' ∉ name.toList)
    (rest : List Char) :
    readElement closed ((ElementType.object name).chars ++ rest) = .ok (.object name, rest) := by
  have hchars : (ElementType.object name).chars ++ rest = 'L' :: (name.toList ++ ';' :: rest) := by
    simp [ElementType.chars]
  rw [hchars]
  simp only [readElement, dropWhile_ne_separator hname, takeWhile_ne_separator hname,
    String.ofList_toList]

/-- The reader of an element type takes its written form off the front of a text, and only that. -/
theorem readElement_eq_ok {closed : DescriptorFault} {cs rest : List Char} {t : ElementType} :
    readElement closed cs = .ok (t, rest) ↔ t.WellFormed ∧ cs = t.chars ++ rest := by
  constructor
  · intro h
    fun_cases readElement closed cs with
    | case1 => simp [readElement] at h
    | case2 => simp [readElement] at h
    | case3 cs hcs => simp [readElement, hcs] at h
    | case4 cs c rest' hcs =>
      simp only [readElement, hcs, Except.ok.injEq, Prod.mk.injEq] at h
      obtain ⟨rfl, rfl⟩ := h
      -- the name ends where the first semicolon is
      obtain rfl : c = ';' := by
        have hne : cs.dropWhile (· != ';') ≠ [] := by simp [hcs]
        simpa [hcs] using List.head_dropWhile_not (· != ';') hne
      have hsplit : cs = cs.takeWhile (· != ';') ++ ';' :: rest' := by
        rw [← hcs, List.takeWhile_append_dropWhile]
      have hname : ';' ∉ cs.takeWhile (· != ';') := fun hmem => by
        simpa using List.mem_takeWhile_imp hmem
      refine ⟨by simpa [ElementType.WellFormed] using hname, ?_⟩
      simpa [ElementType.chars] using hsplit
    | case5 c cs hclose hname type htype =>
      simp only [readElement, htype, Except.ok.injEq, Prod.mk.injEq] at h
      obtain ⟨rfl, rfl⟩ := h
      obtain ⟨hwell, hchars⟩ := ElementType.chars_of_ofLetter? htype
      exact ⟨hwell, by rw [hchars]; rfl⟩
    | case6 c cs hclose hname htype => simp [readElement, htype] at h
  · rintro ⟨hwell, rfl⟩
    cases t with
    | object name => exact readElement_object hwell rest
    | _ => rfl

/-! ## Reading types -/

/-- No element type begins with a bracket. -/
theorem readArray_chars (n : Nat) (e : ElementType) (rest : List Char) :
    readArray n (e.chars ++ rest) =
      (readElement .missingElement (e.chars ++ rest)).map fun (type, rest) =>
        (.array type n, rest) := by
  cases e with
  | _ => rfl

theorem readType_chars (closed : DescriptorFault) (e : ElementType) (rest : List Char) :
    readType closed (e.chars ++ rest) =
      (readElement closed (e.chars ++ rest)).map fun (type, rest) => (.element type, rest) := by
  cases e with
  | _ => rfl

/-- Brackets are counted as long as there are not too many. -/
theorem readArray_brackets {n k : Nat} (h : n + k ≤ maxDimensions) (cs : List Char) :
    readArray n (List.replicate k '[' ++ cs) = readArray (n + k) cs := by
  induction k generalizing n with
  | zero => rfl
  | succ k ih =>
    have hlt : n < maxDimensions := by omega
    have hnext : n + 1 + k ≤ maxDimensions := by omega
    rw [List.replicate_succ, List.cons_append, readArray, if_pos hlt, ih hnext]
    congr 1
    omega

theorem readArray_eq_ok {n : Nat} {cs rest : List Char} {t : TypeDescriptor}
    (hn : n ≤ maxDimensions) :
    readArray n cs = .ok (t, rest) ↔
      ∃ e k, t = .array e (n + k) ∧ n + k ≤ maxDimensions ∧ e.WellFormed ∧
        cs = List.replicate k '[' ++ (e.chars ++ rest) := by
  constructor
  · intro h
    fun_induction readArray n cs with
    | case1 n cs hlt ih =>
      obtain ⟨e, k, rfl, hmax, hwell, rfl⟩ := ih (by omega) h
      refine ⟨e, k + 1, ?_, by omega, hwell, by rw [List.replicate_succ, List.cons_append]⟩
      congr 1
      omega
    | case2 => contradiction
    | case3 n cs hfirst =>
      obtain ⟨⟨e, rest'⟩, hread, heq⟩ := map_eq_ok.1 h
      obtain ⟨rfl, rfl⟩ := Prod.mk.inj heq
      obtain ⟨hwell, rfl⟩ := readElement_eq_ok.1 hread
      exact ⟨e, 0, rfl, hn, hwell, rfl⟩
  · rintro ⟨e, k, rfl, hmax, hwell, rfl⟩
    rw [readArray_brackets hmax, readArray_chars, readElement_eq_ok.2 ⟨hwell, rfl⟩]
    rfl

/-- The reader of a type takes its written form off the front of a text, and only that. -/
theorem readType_eq_ok {closed : DescriptorFault} {cs rest : List Char} {t : TypeDescriptor} :
    readType closed cs = .ok (t, rest) ↔ t.WellFormed ∧ cs = t.chars ++ rest := by
  have hone : 1 ≤ maxDimensions := by decide
  constructor
  · intro h
    unfold readType at h
    split at h
    · obtain ⟨e, k, rfl, hmax, hwell, rfl⟩ := (readArray_eq_ok hone).1 h
      refine ⟨⟨hwell, by omega, hmax⟩, ?_⟩
      rw [TypeDescriptor.chars, Nat.add_comm, List.replicate_succ, List.append_assoc,
        List.cons_append]
    · obtain ⟨⟨e, rest'⟩, hread, heq⟩ := map_eq_ok.1 h
      obtain ⟨rfl, rfl⟩ := Prod.mk.inj heq
      exact readElement_eq_ok.1 hread
  · rintro ⟨hwell, rfl⟩
    cases t with
    | element e =>
      rw [TypeDescriptor.chars, readType_chars, readElement_eq_ok.2 ⟨hwell, rfl⟩]
      rfl
    | array e n =>
      obtain ⟨hwell, hpos, hmax⟩ := hwell
      obtain ⟨k, rfl⟩ := Nat.exists_eq_add_of_le hpos
      rw [TypeDescriptor.chars, Nat.add_comm, List.replicate_succ, List.append_assoc,
        List.cons_append, readType, Nat.add_comm]
      exact (readArray_eq_ok hone).2 ⟨e, k, rfl, hmax, hwell, rfl⟩

/-! ## Reading descriptors -/

/-- No type begins with the parenthesis that ends the parameters. -/
theorem TypeDescriptor.exists_chars {t : TypeDescriptor} (ht : t.WellFormed) :
    ∃ c cs, t.chars = c :: cs ∧ c ≠ ')' := by
  cases t with
  | element e =>
    cases e with
    | _ => exact ⟨_, _, rfl, by decide⟩
  | array e n =>
    obtain ⟨-, hpos, -⟩ := ht
    obtain ⟨k, rfl⟩ := Nat.exists_eq_add_of_le hpos
    refine ⟨'[', List.replicate k '[' ++ e.chars, ?_, by decide⟩
    rw [chars, Nat.add_comm, List.replicate_succ, List.cons_append]

/-- A type before the end of the parameters is read as their first. -/
theorem readParameters_type {t : TypeDescriptor} (ht : t.WellFormed) (rest : List Char) :
    readParameters (t.chars ++ rest) =
      (readParameters rest).map fun (types, rest) => (t :: types, rest) := by
  have hread : readType .endOfText (t.chars ++ rest) = .ok (t, rest) := readType_eq_ok.2 ⟨ht, rfl⟩
  obtain ⟨c, cs, hchars, hc⟩ := TypeDescriptor.exists_chars ht
  rw [readParameters.eq_def]
  split
  · rename_i heq
    rw [hchars] at heq
    exact absurd (List.cons.inj heq).1 hc
  · split
    · rename_i fault herror
      rw [hread] at herror
      contradiction
    · rename_i type rest' hok
      obtain ⟨rfl, rfl⟩ := Prod.mk.inj (Except.ok.inj (hread.symm.trans hok))
      rfl

theorem readParameters_eq_ok {cs rest : List Char} {ts : List TypeDescriptor} :
    readParameters cs = .ok (ts, rest) ↔
      (∀ t ∈ ts, t.WellFormed) ∧ cs = ts.flatMap TypeDescriptor.chars ++ ')' :: rest := by
  constructor
  · intro h
    fun_induction readParameters cs generalizing ts with
    | case1 rest' =>
      obtain ⟨rfl, rfl⟩ := Prod.mk.inj (Except.ok.inj h)
      exact ⟨by simp, rfl⟩
    | case2 => contradiction
    | case3 cs hclose type rest' hread ih =>
      obtain ⟨⟨types, rest''⟩, hrest, heq⟩ := map_eq_ok.1 h
      obtain ⟨rfl, rfl⟩ := Prod.mk.inj heq
      obtain ⟨hwell, rfl⟩ := readType_eq_ok.1 hread
      obtain ⟨htypes, rfl⟩ := ih hrest
      refine ⟨List.forall_mem_cons.2 ⟨hwell, htypes⟩, ?_⟩
      rw [List.flatMap_cons, List.append_assoc]
  · rintro ⟨hts, rfl⟩
    induction ts with
    | nil => rw [List.flatMap_nil, List.nil_append, readParameters]
    | cons t ts ih =>
      obtain ⟨ht, hts⟩ := List.forall_mem_cons.1 hts
      rw [List.flatMap_cons, List.append_assoc, readParameters_type ht, ih hts]
      rfl

namespace MethodDescriptor

variable {d : MethodDescriptor} {text : String}

/-- **The reader of a descriptor takes its written form off the front of a text**, and only that. -/
theorem read_eq_ok {cs rest : List Char} :
    read cs = .ok (d, rest) ↔ d.Decodable ∧ cs = d.chars ++ rest := by
  constructor
  · intro h
    unfold read at h
    split at h
    · split at h
      · contradiction
      · rename_i cs params rest' hparams
        obtain ⟨⟨result, rest''⟩, hresult, heq⟩ := map_eq_ok.1 h
        obtain ⟨rfl, rfl⟩ := Prod.mk.inj heq
        obtain ⟨hwell, rfl⟩ := readParameters_eq_ok.1 hparams
        obtain ⟨hwell', rfl⟩ := readType_eq_ok.1 hresult
        exact ⟨⟨hwell, hwell'⟩, by simp [chars]⟩
    · contradiction
  · rintro ⟨hd, rfl⟩
    have hparams : readParameters (d.params.flatMap TypeDescriptor.chars ++
        ')' :: (d.result.chars ++ rest)) = .ok (d.params, d.result.chars ++ rest) :=
      readParameters_eq_ok.2 ⟨hd.params, rfl⟩
    have hresult : readType .missingResult (d.result.chars ++ rest) = .ok (d.result, rest) :=
      readType_eq_ok.2 ⟨hd.result, rfl⟩
    have hchars : d.chars ++ rest = '(' :: (d.params.flatMap TypeDescriptor.chars ++
        ')' :: (d.result.chars ++ rest)) := by simp [chars]
    simp only [hchars, read, hparams, hresult, Except.map]

/-- The descriptor read from the front of a text is written as the text if and only if nothing is
left over. -/
theorem text_eq_iff {rest : List Char} (h : read text.toList = .ok (d, rest)) :
    d.text = text ↔ rest = [] := by
  obtain ⟨-, hchars⟩ := read_eq_ok.1 h
  rw [← String.toList_inj, MethodDescriptor.text, String.toList_ofList, hchars]
  simp

theorem parse_of_read {rest : List Char} (h : read text.toList = .ok (d, rest)) :
    parse text =
      if rest ≠ [] then .error (.trailing text)
      else if .element .void ∈ d.params then .error (.voidParameter text)
      else .ok d := by
  simp only [parse, h, ne_eq, text_eq_iff h]

theorem parse_of_error {fault : DescriptorFault} (h : read text.toList = .error fault) :
    parse text = .error (.malformed text fault) := by
  simp only [parse, h]

/-- A text is read as a descriptor if and only if it is the written form of that descriptor, and the
descriptor is well formed. -/
theorem parse_eq_ok : parse text = .ok d ↔ d.WellFormed ∧ d.text = text := by
  constructor
  · intro h
    cases hread : read text.toList with
    | error fault => simp [parse_of_error hread] at h
    | ok found =>
      obtain ⟨d', rest⟩ := found
      rw [parse_of_read hread] at h
      split_ifs at h with hrest hvoid
      obtain rfl := Except.ok.inj h
      exact ⟨⟨(read_eq_ok.1 hread).1, hvoid⟩, (text_eq_iff hread).2 (not_not.1 hrest)⟩
  · rintro ⟨hd, rfl⟩
    have hread : read d.text.toList = .ok (d, []) :=
      read_eq_ok.2 ⟨hd.toDecodable, by simp [MethodDescriptor.text]⟩
    simp [parse_of_read hread, hd.no_void]

theorem toList_of_parse (h : parse text = .ok d) : ∃ cs, text.toList = '(' :: cs := by
  rw [← (parse_eq_ok.1 h).2, MethodDescriptor.text, String.toList_ofList]
  exact ⟨_, rfl⟩

/-! ## The grammar is what is read -/

theorem elementText_iff {cs : List Char} :
    ElementText cs ↔ ∃ e : ElementType, e.WellFormed ∧ e.chars = cs := by
  constructor
  · intro h
    cases h with
    | @letter c hc =>
      have hletter : ∃ e, ElementType.ofLetter? c = some e := by
        simp only [List.mem_cons, List.not_mem_nil, or_false] at hc
        rcases hc with rfl | rfl | rfl | rfl | rfl | rfl | rfl | rfl | rfl
        all_goals exact ⟨_, rfl⟩
      obtain ⟨e, he⟩ := hletter
      exact ⟨e, ElementType.chars_of_ofLetter? he⟩
    | @object name hname =>
      exact ⟨.object (String.ofList name), by simpa [ElementType.WellFormed] using hname,
        by simp [ElementType.chars]⟩
  · rintro ⟨e, hwell, rfl⟩
    cases e with
    | object name => exact .object hwell
    | _ => exact .letter (by decide)

theorem typeText_iff {cs : List Char} :
    TypeText cs ↔ ∃ t : TypeDescriptor, t.WellFormed ∧ t.chars = cs := by
  constructor
  · intro h
    cases h with
    | element hcs =>
      obtain ⟨e, hwell, rfl⟩ := elementText_iff.1 hcs
      exact ⟨.element e, hwell, rfl⟩
    | @array n cs hpos hmax hcs =>
      obtain ⟨e, hwell, rfl⟩ := elementText_iff.1 hcs
      exact ⟨.array e n, ⟨hwell, hpos, hmax⟩, rfl⟩
  · rintro ⟨t, hwell, rfl⟩
    cases t with
    | element e => exact .element (elementText_iff.2 ⟨e, hwell, rfl⟩)
    | array e n => exact .array hwell.2.1 hwell.2.2 (elementText_iff.2 ⟨e, hwell.1, rfl⟩)

/-- Only `void` itself is written `V`. -/
theorem chars_eq_void_iff {t : TypeDescriptor} (ht : t.WellFormed) :
    t.chars = ['V'] ↔ t = .element .void := by
  cases t with
  | element e =>
    cases e with
    | object name => simp [TypeDescriptor.chars, ElementType.chars]
    | _ => decide
  | array e n =>
    obtain ⟨-, hpos, -⟩ := ht
    obtain ⟨k, rfl⟩ := Nat.exists_eq_add_of_le hpos
    simp [TypeDescriptor.chars, Nat.add_comm 1 k, List.replicate_succ]

theorem parametersText_iff {cs : List Char} :
    ParametersText cs ↔ ∃ ts : List TypeDescriptor,
      (∀ t ∈ ts, t.WellFormed) ∧ .element .void ∉ ts ∧ ts.flatMap TypeDescriptor.chars = cs := by
  constructor
  · intro h
    induction h with
    | nil => exact ⟨[], by simp⟩
    | cons ht hvoid _ ih =>
      obtain ⟨t, hwell, rfl⟩ := typeText_iff.1 ht
      obtain ⟨ts, hts, hvoids, rfl⟩ := ih
      have hne : .element .void ≠ t := fun heq => hvoid ((chars_eq_void_iff hwell).2 heq.symm)
      exact ⟨t :: ts, List.forall_mem_cons.2 ⟨hwell, hts⟩, by simp [hne, hvoids],
        List.flatMap_cons⟩
  · rintro ⟨ts, hts, hvoids, rfl⟩
    induction ts with
    | nil => exact .nil
    | cons t ts ih =>
      obtain ⟨hwell, hts⟩ := List.forall_mem_cons.1 hts
      obtain ⟨hne, hvoids⟩ := not_or.1 (List.mem_cons.not.1 hvoids)
      rw [List.flatMap_cons]
      refine .cons (typeText_iff.2 ⟨t, hwell, rfl⟩) (fun heq => ?_) (ih hts hvoids)
      exact hne ((chars_eq_void_iff hwell).1 heq).symm

/-- The grammar describes the written forms of well-formed descriptors. -/
theorem descriptorText_iff {cs : List Char} :
    DescriptorText cs ↔ ∃ d : MethodDescriptor, d.WellFormed ∧ d.chars = cs := by
  constructor
  · rintro ⟨hparams, hresult⟩
    obtain ⟨ts, hts, hvoids, rfl⟩ := parametersText_iff.1 hparams
    obtain ⟨t, ht, rfl⟩ := typeText_iff.1 hresult
    exact ⟨⟨ts, t⟩, ⟨⟨hts, ht⟩, hvoids⟩, rfl⟩
  · rintro ⟨d, hd, rfl⟩
    exact .mk (parametersText_iff.2 ⟨d.params, hd.params, hd.no_void, rfl⟩)
      (typeText_iff.2 ⟨d.result, hd.result, rfl⟩)

theorem exists_parse_iff : (∃ d, parse text = .ok d) ↔ DescriptorText text.toList := by
  rw [descriptorText_iff]
  refine exists_congr fun d => ?_
  rw [parse_eq_ok, ← String.toList_inj, MethodDescriptor.text, String.toList_ofList]

/-! ## Refused texts -/

theorem parse_eq_trailing {shown : String} :
    parse text = .error (.trailing shown) ↔
      shown = text ∧ ∃ d rest, read text.toList = .ok (d, rest) ∧ rest ≠ [] := by
  cases hread : read text.toList with
  | error fault => simp [parse_of_error hread]
  | ok found =>
    obtain ⟨d, rest⟩ := found
    rw [parse_of_read hread]
    by_cases hrest : rest = []
    · by_cases hvoid : .element .void ∈ d.params <;> simp [hrest, hvoid]
    · rw [if_pos hrest]
      constructor
      · rintro ⟨⟩
        exact ⟨rfl, d, rest, rfl, hrest⟩
      · rintro ⟨rfl, -⟩
        rfl

theorem parse_eq_voidParameter {shown : String} :
    parse text = .error (.voidParameter shown) ↔
      shown = text ∧ ∃ d, read text.toList = .ok (d, []) ∧ .element .void ∈ d.params := by
  cases hread : read text.toList with
  | error fault => simp [parse_of_error hread]
  | ok found =>
    obtain ⟨d, rest⟩ := found
    rw [parse_of_read hread]
    by_cases hrest : rest = []
    · by_cases hvoid : .element .void ∈ d.params <;> simp [hrest, hvoid, eq_comm]
    · simp [hrest]

/-- **Reading accepts the grammar of descriptors and nothing else**, and gives the descriptor whose
written form the text is; so every well-formed descriptor is read back. A text is refused for what
follows the descriptor if and only if a descriptor can be read from its front and leaves something,
and for a `void` parameter if and only if it is read to its end and a parameter is `void`. -/
theorem parse_exact (text : String) :
    ((∃ d, parse text = .ok d) ↔ DescriptorText text.toList) ∧
    (∀ d, parse text = .ok d ↔ d.WellFormed ∧ d.text = text) ∧
    (∀ shown, parse text = .error (.trailing shown) ↔
      shown = text ∧ ∃ d rest, read text.toList = .ok (d, rest) ∧ rest ≠ []) ∧
    ∀ shown, parse text = .error (.voidParameter shown) ↔
      shown = text ∧ ∃ d, read text.toList = .ok (d, []) ∧ .element .void ∈ d.params :=
  ⟨exists_parse_iff, fun _ => parse_eq_ok, fun _ => parse_eq_trailing,
    fun _ => parse_eq_voidParameter⟩

end MethodDescriptor

end DispatchGraph
