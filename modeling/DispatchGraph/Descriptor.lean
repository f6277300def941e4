/-!
# Method descriptors

The type part of a method: its parameter types and its return type, written
`(I[Ljava/lang/String;)V`.

* `MethodDescriptor.chars`: the written form.
* `readType`, `readParameters`, `MethodDescriptor.read`: read a descriptor from the front of a text,
  and say what is left.
* `MethodDescriptor.parse`: the whole text is one descriptor and no parameter is `void`.

An array has between 1 and `maxDimensions` dimensions. Names of object types may hold any character
but the semicolon that ends them.
-/

namespace DispatchGraph

/-! ## Types -/

/-- A type that is not an array. -/
inductive ElementType where
  | byte | char | double | float | int | long | short | boolean | void
  | object (name : String)
  deriving DecidableEq

/-- A type: an element type, or an array of elements with a number of dimensions. -/
inductive TypeDescriptor where
  | element (type : ElementType)
  | array (type : ElementType) (dimensions : Nat)
  deriving DecidableEq

/-- Parameter types and return type of a method. -/
structure MethodDescriptor where
  params : List TypeDescriptor
  result : TypeDescriptor
  deriving DecidableEq

/-! ## The written form -/

/-- The written form of an element type. -/
def ElementType.chars : ElementType → List Char
  | byte => ['B']
  | char => ['C']
  | double => ['D']
  | float => ['F']
  | int => ['I']
  | long => ['J']
  | short => ['S']
  | boolean => ['Z']
  | void => ['V']
  | object name => 'L' :: (name.toList ++ [';'])

/-- The written form of a type. -/
def TypeDescriptor.chars : TypeDescriptor → List Char
  | element type => type.chars
  | array type dimensions => List.replicate dimensions '[' ++ type.chars

/-- The written form of a descriptor. -/
def MethodDescriptor.chars (d : MethodDescriptor) : List Char :=
  '(' :: (d.params.flatMap TypeDescriptor.chars ++ ')' :: d.result.chars)

/-- The written form of a descriptor. -/
def MethodDescriptor.text (d : MethodDescriptor) : String := String.ofList d.chars

/-! ## Faults -/

/-- Why no descriptor can be read from the front of a text. -/
inductive DescriptorFault where
  /-- The text does not begin with a parenthesis. -/
  | notOpened
  /-- A character that begins no type. -/
  | unrecognized
  /-- The name of an object type does not end. -/
  | unfinishedName
  /-- The parameters end where the element type of an array is due. -/
  | missingElement
  /-- The parameters end where the return type is due. -/
  | missingResult
  /-- The text ends. -/
  | endOfText
  /-- An array with more than `maxDimensions` dimensions. -/
  | tooManyDimensions
  deriving DecidableEq

/-- The wording of a fault. -/
def DescriptorFault.message : DescriptorFault → String
  | notOpened => "Invalid descriptor: Method descriptor must start with '('."
  | unrecognized => "Invalid descriptor: Unrecognized type descriptor."
  | unfinishedName => "Invalid descriptor: Missing semicolon in class name descriptor."
  | missingElement => "Invalid descriptor: Invalid descriptor."
  | missingResult => "Invalid descriptor: Missing return type."
  | endOfText => "Unexpected end of input."
  | tooManyDimensions => "Array has too many dimensions."

/-- Why a text is not a method descriptor. -/
inductive DescriptorError where
  /-- No descriptor can be read. -/
  | malformed (text : String) (fault : DescriptorFault)
  /-- Something follows the descriptor. -/
  | trailing (text : String)
  /-- A parameter is exactly `V`. -/
  | voidParameter (text : String)
  deriving DecidableEq

/-- The error and what caused it, outermost first. -/
def DescriptorError.causes : DescriptorError → List String
  | malformed text fault => [s!"malformed method descriptor `{text}`", fault.message]
  | trailing text => [s!"trailing characters in method descriptor `{text}`"]
  | voidParameter text => [s!"void parameter in method descriptor `{text}`"]

/-! ## Reading -/

/-- The largest number of dimensions of an array. -/
def maxDimensions : Nat := 255

/-- The element type that one letter stands for. -/
def ElementType.ofLetter? : Char → Option ElementType
  | 'B' => some byte
  | 'C' => some char
  | 'D' => some double
  | 'F' => some float
  | 'I' => some int
  | 'J' => some long
  | 'S' => some short
  | 'Z' => some boolean
  | 'V' => some void
  | _ => none

/-- Read an element type; `closed` is the fault if the parameters end here. -/
def readElement (closed : DescriptorFault) :
    List Char → Except DescriptorFault (ElementType × List Char)
  | [] => .error .endOfText
  | ')' :: _ => .error closed
  | 'L' :: cs =>
    match cs.dropWhile (· != ';') with
    | [] => .error .unfinishedName
    | _ :: rest => .ok (.object (String.ofList (cs.takeWhile (· != ';'))), rest)
  | c :: cs =>
    match ElementType.ofLetter? c with
    | some type => .ok (type, cs)
    | none => .error .unrecognized

/-- Read the rest of a type after `dimensions` opening brackets. -/
def readArray (dimensions : Nat) : List Char → Except DescriptorFault (TypeDescriptor × List Char)
  | '[' :: cs =>
    if dimensions < maxDimensions then readArray (dimensions + 1) cs
    else .error .tooManyDimensions
  | cs => (readElement .missingElement cs).map fun (type, rest) => (.array type dimensions, rest)

/-- Read a type; `closed` is the fault if the parameters end here. -/
def readType (closed : DescriptorFault) :
    List Char → Except DescriptorFault (TypeDescriptor × List Char)
  | '[' :: cs => readArray 1 cs
  | cs => (readElement closed cs).map fun (type, rest) => (.element type, rest)

theorem map_eq_ok {ε α β : Type} {x : Except ε α} {f : α → β} {b : β} :
    x.map f = .ok b ↔ ∃ a, x = .ok a ∧ f a = b := by
  cases x with
  | error e => simp [Except.map]
  | ok a => simp [Except.map]

theorem length_lt_of_readElement {closed : DescriptorFault} {cs rest : List Char} {t : ElementType}
    (h : readElement closed cs = .ok (t, rest)) : rest.length < cs.length := by
  fun_cases readElement closed cs with
  | case1 => simp [readElement] at h
  | case2 => simp [readElement] at h
  | case3 cs hcs => simp [readElement, hcs] at h
  | case4 cs c rest' hcs =>
    have hle : (cs.dropWhile (· != ';')).length ≤ cs.length := (List.dropWhile_suffix _).length_le
    simp only [readElement, hcs, Except.ok.injEq, Prod.mk.injEq] at h
    rw [hcs, h.2] at hle
    simp only [List.length_cons] at hle ⊢
    omega
  | case5 c cs hclose hname type htype =>
    simp only [readElement, htype, Except.ok.injEq, Prod.mk.injEq] at h
    simp [h.2]
  | case6 c cs hclose hname htype => simp [readElement, htype] at h

theorem length_lt_of_readArray {n : Nat} {cs rest : List Char} {t : TypeDescriptor}
    (h : readArray n cs = .ok (t, rest)) : rest.length < cs.length := by
  fun_induction readArray n cs with
  | case1 n cs _ ih => exact Nat.lt_succ_of_lt (ih h)
  | case2 => contradiction
  | case3 n cs =>
    obtain ⟨⟨type, rest'⟩, he, heq⟩ := map_eq_ok.1 h
    obtain ⟨_, rfl⟩ := Prod.mk.inj heq
    exact length_lt_of_readElement he

theorem length_lt_of_readType {closed : DescriptorFault} {cs rest : List Char} {t : TypeDescriptor}
    (h : readType closed cs = .ok (t, rest)) : rest.length < cs.length := by
  unfold readType at h
  split at h
  · exact Nat.lt_succ_of_lt (length_lt_of_readArray h)
  · obtain ⟨⟨type, rest'⟩, he, heq⟩ := map_eq_ok.1 h
    obtain ⟨_, rfl⟩ := Prod.mk.inj heq
    exact length_lt_of_readElement he

/-- Read types up to the closing parenthesis. -/
def readParameters (cs : List Char) :
    Except DescriptorFault (List TypeDescriptor × List Char) :=
  match cs with
  | ')' :: rest => .ok ([], rest)
  | cs =>
    match _h : readType .endOfText cs with
    | .error fault => .error fault
    | .ok (type, rest) =>
      (readParameters rest).map fun (types, rest) => (type :: types, rest)
termination_by cs.length
decreasing_by exact length_lt_of_readType _h

/-- Read a method descriptor from the front of a text. -/
def MethodDescriptor.read : List Char → Except DescriptorFault (MethodDescriptor × List Char)
  | '(' :: cs =>
    match readParameters cs with
    | .error fault => .error fault
    | .ok (params, rest) =>
      (readType .missingResult rest).map fun (result, rest) => (⟨params, result⟩, rest)
  | _ => .error .notOpened

/-- Read a text that is one method descriptor. The descriptor that its front holds must be written
as the whole text, and none of its parameters may be `void`. -/
def MethodDescriptor.parse (text : String) : Except DescriptorError MethodDescriptor :=
  match read text.toList with
  | .error fault => .error (.malformed text fault)
  | .ok (descriptor, _) =>
    if descriptor.text ≠ text then .error (.trailing text)
    else if .element .void ∈ descriptor.params then .error (.voidParameter text)
    else .ok descriptor

end DispatchGraph
