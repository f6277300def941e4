import DispatchGraph.Json.Printer
import DispatchGraph.Json.Reader
import DispatchGraph.Proofs.Sorted

/-!
# Reading back what was written

A value without numbers that is not nested too deeply is read back from its written form, with the
fields of its objects in order of their names (`Json.Plain.parse_compact`). Both halves of the
reader are followed up to what comes after the value. The scanner makes the tokens of the value from
its characters (`Json.Plain.scans`), and these complete the value in whatever list or object is open
(`Json.Plain.reads`).
-/

namespace DispatchGraph.Json

/-! ## Tokens and normal forms -/

mutual

/-- The tokens of a value. -/
def toTokens : Json → List Token
  | str value => [.string value]
  | arr items => .openArray :: (itemsTokens items ++ [.closeArray])
  | obj fields => .openObject :: (fieldsTokens fields ++ [.closeObject])
  | value => [.scalar value]

/-- The tokens of items with commas between them. -/
def itemsTokens : List Json → List Token
  | [] => []
  | [item] => toTokens item
  | item :: items => toTokens item ++ .comma :: itemsTokens items

/-- The tokens of fields with commas between them. -/
def fieldsTokens : List (String × Json) → List Token
  | [] => []
  | [(name, value)] => .string name :: .colon :: toTokens value
  | (name, value) :: fields =>
    .string name :: .colon :: (toTokens value ++ .comma :: fieldsTokens fields)

end

mutual

/-- The value with the fields of its objects in order of their names, the last of each name. -/
def normal : Json → Json
  | arr items => arr (normalItems items)
  | obj fields => ofFields (normalFields fields)
  | value => value

/-- The normal forms of items. -/
def normalItems : List Json → List Json
  | [] => []
  | item :: items => normal item :: normalItems items

/-- Fields with the normal forms of their values. -/
def normalFields : List (String × Json) → List (String × Json)
  | [] => []
  | (name, value) :: fields => (name, normal value) :: normalFields fields

end

theorem normalItems_eq_map (items : List Json) : normalItems items = items.map normal := by
  induction items with
  | nil => rfl
  | cons item items ih => rw [normalItems, ih, List.map_cons]

theorem normalFields_eq_map (fields : List (String × Json)) :
    normalFields fields = fields.map fun field => (field.1, field.2.normal) := by
  induction fields with
  | nil => rfl
  | cons field fields ih => rw [normalFields, ih, List.map_cons]

/-- A value without numbers that is nested at most `depth` deep. -/
inductive Plain : Nat → Json → Prop where
  | null {depth : Nat} : Plain depth null
  | bool {depth : Nat} (value : Bool) : Plain depth (bool value)
  | str {depth : Nat} (value : String) : Plain depth (str value)
  | arr {depth : Nat} {items : List Json} (hitems : ∀ item ∈ items, Plain depth item) :
    Plain (depth + 1) (arr items)
  | obj {depth : Nat} {fields : List (String × Json)}
    (hfields : ∀ field ∈ fields, Plain depth field.2) : Plain (depth + 1) (obj fields)

/-! ## From characters to tokens -/

/-- A literal name does not go on in what follows. -/
def EndsWord (rest : List Char) : Prop := ∀ c ∈ rest.head?, c.isAlpha = false

/-- The scanner makes the tokens of the value from its characters, whatever follows. -/
def Scans (value : Json) : Prop :=
  ∀ rest, EndsWord rest →
    Scan.between.run (value.chars ++ rest) = (Scan.between.run rest).map (value.toTokens ++ ·)

theorem endsWord_cons {c : Char} {rest : List Char} (hc : c.isAlpha = false) :
    EndsWord (c :: rest) := by
  rintro d hd
  obtain rfl : c = d := by simpa using hd
  exact hc

namespace Scan

/-- A character that is a token by itself. -/
theorem run_mark (c : Char) (token : Token) (hstart : start c = some ([token], between))
    (cs : List Char) : between.run (c :: cs) = (between.run cs).map (token :: ·) := by
  simp [run, step, hstart]

theorem run_letters {letters : List Char} (hletters : ∀ c ∈ letters, c.isAlpha = true)
    (done rest : List Char) :
    (word done).run (letters ++ rest) = (word (letters.reverse ++ done)).run rest := by
  induction letters generalizing done with
  | nil => rfl
  | cons c letters ih =>
    obtain ⟨hc, hletters⟩ := List.forall_mem_cons.1 hletters
    have hstep : (word done).run (c :: (letters ++ rest)) =
        (word (c :: done)).run (letters ++ rest) := by simp [run, step, hc]
    rw [List.cons_append, hstep, ih hletters, List.reverse_cons, List.append_assoc,
      List.singleton_append]

/-- A literal name ends where no letter follows. -/
theorem run_word {done rest : List Char} {value : Json} (hword : ofWord? done.reverse = some value)
    (hrest : EndsWord rest) :
    (word done).run rest = (between.run rest).map (.scalar value :: ·) := by
  cases rest with
  | nil => simp [run, finish, hword]
  | cons c rest =>
    have hc : c.isAlpha = false := hrest c (by simp)
    simp only [run, step, hc, finish, hword]
    cases start c with
    | none => rfl
    | some next => simp [Function.comp_def]

theorem run_literal {first : Char} {letters rest : List Char} {value : Json}
    (hfirst : start first = some ([], word [first])) (hletters : ∀ c ∈ letters, c.isAlpha = true)
    (hword : ofWord? (first :: letters) = some value) (hrest : EndsWord rest) :
    between.run (first :: letters ++ rest) = (between.run rest).map (.scalar value :: ·) := by
  have hopen : between.run (first :: letters ++ rest) = (word [first]).run (letters ++ rest) := by
    simp [run, step, hfirst]
  have hdone : (letters.reverse ++ [first]).reverse = first :: letters := by simp
  rw [hopen, run_letters hletters, run_word (hdone ▸ hword) hrest]

theorem run_shortEscape {done rest : List Char} {c d : Char} (hd : d ≠ 'u')
    (hc : unescape? d = some c) :
    (quoted done).run ('\\' :: d :: rest) = (quoted (c :: done)).run rest := by
  simp [run, step, hd, hc]

theorem hexValue?_hexDigit : ∀ n < 16, hexValue? (hexDigit n) = some n := by decide

theorem run_unicodeEscape (done rest : List Char) {n : Nat} (hn : n < 0x20) :
    (quoted done).run
        ('\\' :: 'u' :: '0' :: '0' :: hexDigit (n / 16) :: hexDigit (n % 16) :: rest) =
      (quoted (Char.ofNat n :: done)).run rest := by
  have hzero : hexValue? '0' = some 0 := rfl
  have hhigh := hexValue?_hexDigit (n / 16) (by omega)
  have hlow := hexValue?_hexDigit (n % 16) (by omega)
  have hunit : 16 * (n / 16) + n % 16 = n := Nat.div_add_mod n 16
  have hnotHigh : isHighSurrogate n = false := by simp [isHighSurrogate]; omega
  have hnotLow : isLowSurrogate n = false := by simp [isLowSurrogate]; omega
  simp [run, step, endUnicode, hzero, hhigh, hlow, hunit, hnotHigh, hnotLow]

/-- The scanner takes the written form of a character of a string for the character. -/
theorem run_escapeChar (done : List Char) (c : Char) (rest : List Char) :
    (quoted done).run (escapeChar c ++ rest) = (quoted (c :: done)).run rest := by
  rw [escapeChar.eq_def]
  split
  -- the characters with short escapes, then all others
  iterate 7 exact run_shortEscape (by decide) rfl
  rename_i hquote hbackslash _ _ _ _ _
  split
  · rename_i hcontrol
    have hescape := run_unicodeEscape done rest hcontrol
    rwa [Char.ofNat_toNat] at hescape
  · rename_i hcontrol
    have hplain : isControl c = false := decide_eq_false hcontrol
    have hquote : c ≠ '"' := hquote
    have hbackslash : c ≠ '\\' := hbackslash
    simp [run, step, hplain, hquote, hbackslash]

theorem run_quoted (done cs rest : List Char) :
    (quoted done).run (cs.flatMap escapeChar ++ '"' :: rest) =
      (between.run rest).map (.string (String.ofList (done.reverse ++ cs)) :: ·) := by
  induction cs generalizing done with
  | nil => simp [run, step]
  | cons c cs ih =>
    rw [List.flatMap_cons, List.append_assoc, run_escapeChar, ih, List.reverse_cons,
      List.append_assoc, List.singleton_append]

theorem run_quote (s : String) (rest : List Char) :
    between.run (quote s ++ rest) = (between.run rest).map (.string s :: ·) := by
  have hopen : between.run (quote s ++ rest) =
      ((quoted []).run (s.toList.flatMap escapeChar ++ '"' :: rest)).map ([] ++ ·) := by
    simp [quote, run, step, start, isBlank]
  rw [hopen, run_quoted]
  simp [Function.comp_def]

end Scan

theorem run_itemsChars {items : List Json} (hitems : ∀ item ∈ items, Scans item)
    {rest : List Char} (hrest : EndsWord rest) :
    Scan.between.run (itemsChars items ++ rest) =
      (Scan.between.run rest).map (itemsTokens items ++ ·) := by
  induction items with
  | nil => simp [itemsChars, itemsTokens]
  | cons item items ih =>
    obtain ⟨hitem, hitems⟩ := List.forall_mem_cons.1 hitems
    -- the last item is followed by `rest`, every other one by a comma
    cases items with
    | nil => exact hitem rest hrest
    | cons next items =>
      simp only [itemsChars, List.append_assoc, List.cons_append]
      rw [hitem _ (endsWord_cons rfl), Scan.run_mark ',' .comma rfl, ih hitems]
      simp [itemsTokens, Function.comp_def]

theorem run_fieldsChars {fields : List (String × Json)}
    (hfields : ∀ field ∈ fields, Scans field.2) {rest : List Char} (hrest : EndsWord rest) :
    Scan.between.run (fieldsChars fields ++ rest) =
      (Scan.between.run rest).map (fieldsTokens fields ++ ·) := by
  induction fields with
  | nil => simp [fieldsChars, fieldsTokens]
  | cons field fields ih =>
    obtain ⟨name, value⟩ := field
    obtain ⟨hvalue, hfields⟩ := List.forall_mem_cons.1 hfields
    cases fields with
    | nil =>
      simp only [fieldsChars, List.append_assoc, List.cons_append]
      rw [Scan.run_quote, Scan.run_mark ':' .colon rfl, hvalue _ hrest]
      simp [fieldsTokens, Function.comp_def]
    | cons next fields =>
      simp only [fieldsChars, List.append_assoc, List.cons_append]
      rw [Scan.run_quote, Scan.run_mark ':' .colon rfl, hvalue _ (endsWord_cons rfl),
        Scan.run_mark ',' .comma rfl, ih hfields]
      simp [fieldsTokens, Function.comp_def]

theorem Plain.scans {depth : Nat} {value : Json} (h : Plain depth value) : Scans value := by
  induction h with
  | null => exact fun rest hrest => Scan.run_literal rfl (List.all_eq_true.1 rfl) rfl hrest
  | bool value =>
    cases value with
    | true => exact fun rest hrest => Scan.run_literal rfl (List.all_eq_true.1 rfl) rfl hrest
    | false => exact fun rest hrest => Scan.run_literal rfl (List.all_eq_true.1 rfl) rfl hrest
  | str value => exact fun rest _ => Scan.run_quote value rest
  | arr _ ih =>
    intro rest hrest
    simp only [chars, List.append_assoc, List.cons_append, List.nil_append]
    rw [Scan.run_mark '[' .openArray rfl, run_itemsChars ih (endsWord_cons rfl),
      Scan.run_mark ']' .closeArray rfl]
    simp [toTokens, Function.comp_def]
  | obj _ ih =>
    intro rest hrest
    simp only [chars, List.append_assoc, List.cons_append, List.nil_append]
    rw [Scan.run_mark '\x7b' .openObject rfl, run_fieldsChars ih (endsWord_cons rfl),
      Scan.run_mark '\x7d' .closeObject rfl]
    simp [toTokens, Function.comp_def]

/-! ## From tokens to values -/

/-- The tokens of the value complete its normal form in whatever is open, if values may be nested
`depth` deep there. -/
def Reads (depth : Nat) (value : Json) : Prop :=
  ∀ stack rest, stack.length + depth ≤ maxDepth →
    (Reading.anyValue stack).run (value.toTokens ++ rest) =
      (Reading.complete value.normal stack).run rest

theorem Reads.inside {depth : Nat} {value : Json} (h : Reads depth value) {stack : List Frame}
    (hdepth : stack.length + (depth + 1) ≤ maxDepth) (frame : Frame) (rest : List Token) :
    (Reading.anyValue (frame :: stack)).run (value.toTokens ++ rest) =
      (Reading.complete value.normal (frame :: stack)).run rest := by
  refine h (frame :: stack) rest ?_
  rw [List.length_cons]
  omega

namespace Reading

/-- What stands first in a list is read like any item, because it does not end the list. -/
theorem run_firstItem (item : Json) (items : List Json) (stack : List Frame) (rest : List Token) :
    (firstItem stack).run (itemsTokens (item :: items) ++ rest) =
      (anyValue (.items [] :: stack)).run (itemsTokens (item :: items) ++ rest) := by
  have hitem : ∀ rest, (firstItem stack).run (item.toTokens ++ rest) =
      (anyValue (.items [] :: stack)).run (item.toTokens ++ rest) := by
    intro rest
    cases item <;> rfl
  cases items with
  | nil => exact hitem rest
  | cons next items =>
    simp only [itemsTokens, List.append_assoc]
    exact hitem _

theorem run_firstName (field : String × Json) (fields : List (String × Json)) (stack : List Frame)
    (rest : List Token) :
    (firstName stack).run (fieldsTokens (field :: fields) ++ rest) =
      (nextName [] stack).run (fieldsTokens (field :: fields) ++ rest) := by
  cases fields <;> rfl

/-- The items of a list, of which there is at least one, and its end. -/
theorem run_itemsTokens {depth : Nat} {item : Json} {items : List Json}
    (hitems : ∀ x ∈ item :: items, Reads depth x) {done : List Json} {stack : List Frame}
    (hdepth : stack.length + (depth + 1) ≤ maxDepth) (rest : List Token) :
    (anyValue (.items done :: stack)).run (itemsTokens (item :: items) ++ .closeArray :: rest) =
      (complete (arr (done.reverse ++ normalItems (item :: items))) stack).run rest := by
  -- `done` holds the items before these, so it grows along the induction
  induction items generalizing item done with
  | nil =>
    obtain ⟨hitem, -⟩ := List.forall_mem_cons.1 hitems
    rw [itemsTokens, hitem.inside hdepth]
    simp [complete, run, step, normalItems]
  | cons next items ih =>
    obtain ⟨hitem, hitems⟩ := List.forall_mem_cons.1 hitems
    have hcomma : ∀ tokens, (moreItems (item.normal :: done) stack).run (.comma :: tokens) =
        (anyValue (.items (item.normal :: done) :: stack)).run tokens := fun _ => rfl
    simp only [itemsTokens, List.append_assoc, List.cons_append]
    rw [hitem.inside hdepth, complete, hcomma, ih hitems]
    simp [normalItems]

/-- The fields of an object, of which there is at least one, and its end. -/
theorem run_fieldsTokens {depth : Nat} {field : String × Json} {fields : List (String × Json)}
    (hfields : ∀ x ∈ field :: fields, Reads depth x.2) {done : List (String × Json)}
    {stack : List Frame} (hdepth : stack.length + (depth + 1) ≤ maxDepth) (rest : List Token) :
    (nextName done stack).run (fieldsTokens (field :: fields) ++ .closeObject :: rest) =
      (complete (obj ((normalFields (field :: fields)).foldl
        (fun done field => putField done field.1 field.2) done)) stack).run rest := by
  have hname : ∀ done name tokens, (nextName done stack).run (.string name :: .colon :: tokens) =
      (anyValue (.fields done name :: stack)).run tokens := fun _ _ _ => rfl
  have hcomma : ∀ done tokens, (moreFields done stack).run (.comma :: tokens) =
      (nextName done stack).run tokens := fun _ _ => rfl
  induction fields generalizing field done with
  | nil =>
    obtain ⟨hvalue, -⟩ := List.forall_mem_cons.1 hfields
    rw [fieldsTokens, List.cons_append, List.cons_append, hname, hvalue.inside hdepth]
    rfl
  | cons next fields ih =>
    obtain ⟨hvalue, hfields⟩ := List.forall_mem_cons.1 hfields
    simp only [fieldsTokens, List.append_assoc, List.cons_append]
    rw [hname, hvalue.inside hdepth, complete, hcomma, ih hfields]
    rfl

end Reading

theorem Plain.reads {depth : Nat} {value : Json} (h : Plain depth value) : Reads depth value := by
  induction h with
  | null => exact fun stack rest _ => rfl
  | bool value => exact fun stack rest _ => rfl
  | str value => exact fun stack rest _ => rfl
  | @arr depth items _ ih =>
    intro stack rest hdepth
    have hlt : stack.length < maxDepth := by omega
    have hopen : ∀ tokens, (Reading.anyValue stack).run (.openArray :: tokens) =
        (Reading.firstItem stack).run tokens := by
      intro tokens
      simp [Reading.run, Reading.step, Reading.start, hlt]
    simp only [toTokens, List.append_assoc, List.cons_append, List.nil_append, hopen]
    cases items with
    | nil => rfl
    | cons item items =>
      rw [Reading.run_firstItem, Reading.run_itemsTokens ih hdepth]
      rfl
  | @obj depth fields _ ih =>
    intro stack rest hdepth
    have hlt : stack.length < maxDepth := by omega
    have hopen : ∀ tokens, (Reading.anyValue stack).run (.openObject :: tokens) =
        (Reading.firstName stack).run tokens := by
      intro tokens
      simp [Reading.run, Reading.step, Reading.start, hlt]
    simp only [toTokens, List.append_assoc, List.cons_append, List.nil_append, hopen]
    cases fields with
    | nil => rfl
    | cons field fields =>
      rw [Reading.run_firstName, Reading.run_fieldsTokens ih hdepth]
      rfl

/-- **A plain value is read back in its normal form.** -/
theorem Plain.parse_compact {depth : Nat} {value : Json} (h : Plain depth value)
    (hdepth : depth ≤ maxDepth) : parse value.compact = some value.normal := by
  have htokens : tokens value.chars = some value.toTokens := by
    simpa [tokens, Scan.run, Scan.finish] using h.scans [] (by simp [EndsWord])
  have hread : (Reading.anyValue []).run value.toTokens = some (.done value.normal) := by
    simpa [Reading.run, Reading.complete] using h.reads [] [] (by simpa using hdepth)
  rw [parse, compact, String.toList_ofList, htokens, Option.bind_some, ofTokens?, hread,
    Option.bind_some, Reading.result?]

/-! ## Fields of normal forms -/

theorem get?_foldl_put (m : SortedMap String Json) (fields : List (String × Json)) (name : String) :
    SortedMap.get? (fields.foldl Sorted.put m) name =
      ((obj fields.reverse).field? name).or (m.get? name) := by
  induction fields generalizing m with
  | nil => rfl
  | cons field fields ih =>
    obtain ⟨other, value⟩ := field
    rw [List.foldl_cons, ih, List.reverse_cons, field?, field?, List.find?_append, Option.map_or,
      Option.or_assoc]
    by_cases hname : other = name
    · subst hname
      simp [SortedMap.get?_put_self]
    · simp [SortedMap.get?_put_of_ne m value (Ne.symm hname), hname]

theorem toList_foldl_put (m : SortedMap String Json) (fields : List (String × Json)) :
    (fields.foldl Sorted.put m).toList =
      fields.foldl (fun done field => putField done field.1 field.2) m.toList := by
  induction fields generalizing m with
  | nil => rfl
  | cons field fields ih => exact ih (m.put field)

/-- Of the fields of one name the last counts. -/
theorem field?_ofFields (fields : List (String × Json)) (name : String) :
    (ofFields fields).field? name = (obj fields.reverse).field? name := by
  have hget := get?_foldl_put ∅ fields name
  have hempty : SortedMap.get? (∅ : SortedMap String Json) name = none := rfl
  rw [hempty, Option.or_none] at hget
  rw [← hget, ofFields, field?, SortedMap.get?, Sorted.find?, toList_foldl_put]
  rfl

theorem field?_normal (fields : List (String × Json)) (name : String) :
    (obj fields).normal.field? name = ((obj fields.reverse).field? name).map normal := by
  rw [normal, field?_ofFields, normalFields_eq_map, ← List.map_reverse, field?, field?,
    List.find?_map, Option.map_map, Option.map_map]
  rfl

end DispatchGraph.Json
