import DispatchGraph.Model.Decoding
import DispatchGraph.Proofs.Format

/-!
# Decoders

What decoders make of the fields of objects (`Decode.need_of_field?`, `Decode.want_of_field?`), of
values that say what they are (`Decode.tagged_obj`), and of lists and texts that were encoded
(`Decode.list_map`, `Decode.signature_text`).
-/

namespace DispatchGraph

/-! ## Results that may fail -/

theorem bind_eq_ok {ε α β : Type} {x : Except ε α} {f : α → Except ε β} {b : β} :
    (x >>= f) = .ok b ↔ ∃ a, x = .ok a ∧ f a = .ok b := by
  cases x with
  | error e => simp [bind, Except.bind]
  | ok a => simp [bind, Except.bind]

theorem eq_ok_of_toOption {ε α : Type} {x : Except ε α} {a : α} (h : x.toOption = some a) :
    x = .ok a := by
  cases x with
  | error e => contradiction
  | ok b => exact congrArg Except.ok (Option.some.inj h)

namespace Decode

variable {α : Type} {decode : Json → Decoded α} {fields : List (String × Json)} {name : String}
  {field : Json}

/-! ## Fields -/

theorem need_of_field? (h : (Json.obj fields).field? name = some field) :
    need decode fields name = decode field := by
  have hlookup : lookup fields name = some field := h
  rw [need, hlookup]

theorem want_of_field? {default : α} (h : (Json.obj fields).field? name = some field) :
    want default decode fields name = decode field := by
  have hlookup : lookup fields name = some field := h
  rw [want, hlookup]

theorem want_of_none {default : α} (h : (Json.obj fields).field? name = none) :
    want default decode fields name = .ok default := by
  have hlookup : lookup fields name = none := h
  rw [want, hlookup]

/-- A value that says in its field `op` what it is. -/
theorem tagged_obj {choice : Json → Decoded String} {op : String}
    (hop : (Json.obj fields).Has "op" (· = .str op)) (hchoice : choice (.str op) = .ok op) :
    tagged choice (.obj fields) = .ok (op, .obj fields) := by
  obtain ⟨_, hfield, rfl⟩ := hop
  rw [tagged, need_of_field? hfield, hchoice]
  rfl

/-! ## Lists and texts -/

theorem optional_arr {items : List Json} :
    optional decode (.arr items) = (decode (.arr items)) >>= fun a => .ok (some a) := by
  rw [optional]
  · cases decode (.arr items) <;> rfl
  · simp

theorem list_map {xs : List α} {toJson : α → Json} (h : ∀ x ∈ xs, decode (toJson x) = .ok x) :
    list decode (.arr (xs.map toJson)) = .ok xs := by
  rw [list]
  induction xs with
  | nil => rfl
  | cons x xs ih =>
    obtain ⟨hx, hxs⟩ := List.forall_mem_cons.1 h
    rw [List.map_cons, List.mapM_cons, hx, ih hxs]
    rfl

theorem list_strings {xs : List α} {text : α → String}
    (h : ∀ x ∈ xs, decode (.str (text x)) = .ok x) :
    list decode (.strings (xs.map text)) = .ok xs := by
  rw [Json.strings, List.map_map]
  exact list_map h

theorem signature_text {s : Signature} (hs : s.Readable) : signature (.str s.text) = .ok s := by
  rw [signature, hs.parse_text]
  rfl

theorem kind_text (kind : CallKind) : Decode.kind (.str kind.text) = .ok kind := by
  cases kind <;> rfl

end Decode

end DispatchGraph
