import ImagePipeline.Config.Document
import Mathlib.Data.List.Forall2

/-! Which value a node stands for, and what the readers of a document make of such a node:
a reader that takes each node of a value as the same thing does not depend on how the
document spells the value. -/
namespace ImagePipeline

open Yaml (Document Node Value)

namespace Yaml

mutual

/-- Whether a node stands for a value. Truth values and numbers are not quoted, and a number
that is not negative has no sign that could make `-0` of it. -/
def Node.holds : Node → Value → Bool
  | .scalar text _ _, .string s => text == s
  | .scalar text .plain _, .bool b => Scalar.bool? text == some b
  | .scalar text .plain _, .int n =>
    Scalar.int? text.toList == some n && (n < 0 || Scalar.unsigned? text.toList == some n.toNat)
  | .sequence nodes, .sequence items => itemsHold nodes items
  | .mapping nodes, .mapping entries => entriesHold nodes entries
  | _, _ => false

def itemsHold : List Node → List Value → Bool
  | [], [] => true
  | node :: nodes, item :: items => node.holds item && itemsHold nodes items
  | _, _ => false

/-- Entries are compared in order. -/
def entriesHold : List (Node × Node) → List (String × Value) → Bool
  | [], [] => true
  | (name, node) :: nodes, (key, value) :: entries =>
    name.holds (.string key) && node.holds value && entriesHold nodes entries
  | _, _ => false

end

/-- The text is read as a document that holds the value. -/
def Value.isReadFrom (v : Value) (text : String) : Bool :=
  match Document.ofText text with
  | .ok d => d.root.any fun n => n.holds v
  | .error _ => false

theorem Value.isReadFrom_iff {v : Value} {text : String} :
    v.isReadFrom text = true ↔
      ∃ d n, Document.ofText text = .ok d ∧ d.root = some n ∧ n.holds v = true := by
  unfold Value.isReadFrom
  split
  · rename_i d same
    simp [same, Option.any_eq_true]
  · rename_i fault same
    simp [same]

/-- Fields with the names of the entries, in their order, that hold the values. -/
def FieldsHold : List (String × Node) → List (String × Value) → Prop :=
  List.Forall₂ fun field entry => field.1 = entry.1 ∧ field.2.holds entry.2 = true

/-- What is written below a path of keys. -/
def Value.at? : List String → Value → Option Value
  | [], v => some v
  | key :: path, .mapping entries => (entries.lookup key).bind (at? path)
  | _ :: _, _ => none

/-- The node below a path of keys. -/
def Document.at? (d : Document) : List String → Node → Option Node
  | [], n => some n
  | key :: path, n => ((d.fields? n).bind fun fields => fields.lookup key).bind (d.at? path)

end Yaml

/-- A reader takes every node of a value as `a`. -/
def Reads {α : Type} (read : Node → Option α) (v : Value) (a : α) : Prop :=
  ∀ n, n.holds v = true → read n = some a

section Readers

variable {α β : Type} (d : Document)

open Yaml

theorem Reads.map {read : Node → Option α} {v : Value} {a : α} (reads : Reads read v a)
    (f : α → β) : Reads (fun n => (read n).map f) v (f a) :=
  fun n held => by simp [reads n held]

theorem reads_text (s : String) : Reads d.text? (.string s) s := by
  intro n held
  cases n with
  | scalar text style tag =>
    have same : text = s := by simpa [Node.holds] using held
    rw [← same]
    rfl
  | _ => simp [Node.holds] at held

/-- Of the scalars only an unquoted one holds something else than a text. -/
theorem meaningful_of_holds {n : Node} {v : Value} (held : n.holds v = true)
    (scalar : (∃ b, v = .bool b) ∨ ∃ i, v = .int i) :
    ∃ text tag, n = .scalar text .plain tag := by
  obtain ⟨b, rfl⟩ | ⟨i, rfl⟩ := scalar <;> cases n with
  | scalar text style tag => cases style <;> simp_all [Node.holds]
  | _ => simp [Node.holds] at held

theorem reads_bool (b : Bool) : Reads d.bool? (.bool b) b := by
  intro n held
  obtain ⟨text, tag, rfl⟩ := meaningful_of_holds held (.inl ⟨b, rfl⟩)
  have meant : Scalar.bool? text = some b := by simpa [Node.holds] using held
  exact meant

theorem reads_int32 (i : Int32) : Reads d.int32? (.int i.toInt) i := by
  intro n held
  obtain ⟨text, tag, rfl⟩ := meaningful_of_holds held (.inr ⟨i.toInt, rfl⟩)
  have meant : Scalar.int? text.toList = some i.toInt := by
    simp only [Node.holds, Bool.and_eq_true, beq_iff_eq] at held
    exact held.1
  have least : -2147483648 ≤ i.toInt := i.le_toInt
  have most : i.toInt < 2147483648 := i.toInt_lt
  simp [Document.int32?, Document.meaningful?, Document.resolve, meant, least, most]

theorem reads_uint32 (i : UInt32) : Reads d.uint32? (.int i.toNat) i := by
  intro n held
  obtain ⟨text, tag, rfl⟩ := meaningful_of_holds held (.inr ⟨i.toNat, rfl⟩)
  have meant : Scalar.unsigned? text.toList = some i.toNat := by
    simp only [Node.holds, Bool.and_eq_true, Bool.or_eq_true, decide_eq_true_eq, beq_iff_eq]
      at held
    obtain ⟨_, negative | meant⟩ := held
    · omega
    · exact meant
  have most : i.toNat < Nat.pow 2 32 := i.toNat_lt
  simp [Document.uint32?, Document.meaningful?, Document.resolve, meant, most]

theorem texts_of_itemsHold {nodes : List Node} {texts : List String}
    (held : itemsHold nodes (texts.map .string) = true) : nodes.mapM d.text? = some texts := by
  induction texts generalizing nodes with
  | nil =>
    cases nodes with
    | nil => rfl
    | cons node nodes => simp [itemsHold] at held
  | cons text texts ih =>
    cases nodes with
    | nil => simp [itemsHold] at held
    | cons node nodes =>
      simp only [List.map_cons, itemsHold, Bool.and_eq_true] at held
      simp [reads_text d text node held.1, ih held.2]

theorem reads_texts (texts : List String) : Reads d.texts? (.strings texts) texts := by
  intro n held
  cases n with
  | sequence nodes => exact texts_of_itemsHold d held
  | scalar text style tag => cases style <;> simp [Value.strings, Node.holds] at held
  | _ => simp [Value.strings, Node.holds] at held

theorem fields_of_entriesHold {nodes : List (Node × Node)} {entries : List (String × Value)}
    (held : entriesHold nodes entries = true) :
    ∃ fields, d.fields? (.mapping nodes) = some fields ∧ FieldsHold fields entries := by
  simp only [Document.fields?, Document.resolve]
  induction entries generalizing nodes with
  | nil =>
    cases nodes with
    | nil => exact ⟨[], rfl, .nil⟩
    | cons node nodes => simp [entriesHold] at held
  | cons entry entries ih =>
    obtain ⟨key, value⟩ := entry
    cases nodes with
    | nil => simp [entriesHold] at held
    | cons node nodes =>
      obtain ⟨name, node⟩ := node
      simp only [entriesHold, Bool.and_eq_true] at held
      obtain ⟨fields, read, hold⟩ := ih held.2
      exact ⟨(key, node) :: fields, by simp [reads_text d key name held.1.1, read],
        .cons ⟨rfl, held.1.2⟩ hold⟩

/-- What is read from the fields of a mapping. -/
theorem reads_mapping {entries : List (String × Value)} {a : α}
    {read : List (String × Node) → Option α}
    (reads : ∀ fields, FieldsHold fields entries → read fields = some a) :
    Reads (fun n => d.fields? n >>= read) (.mapping entries) a := by
  intro n held
  cases n with
  | mapping nodes =>
    obtain ⟨fields, same, hold⟩ := fields_of_entriesHold d held
    simp [same, reads fields hold]
  | scalar text style tag => cases style <;> simp [Node.holds] at held
  | _ => simp [Node.holds] at held

/-- What holds no mapping has no entries. -/
theorem lookup_of_scalar {n : Node} {v : Value} (held : n.holds v = true)
    (scalar : ∀ entries, v ≠ .mapping entries) (key : String) :
    ((d.fields? n).bind fun fields => fields.lookup key) = none := by
  cases n with
  | mapping nodes => cases v <;> simp_all [Node.holds]
  | scalar text style tag =>
    simp only [Document.fields?, Document.resolve]
    split <;> simp
  | sequence nodes => simp [Document.fields?, Document.resolve, Node.isEmptyValue]
  | _ => cases v <;> simp [Node.holds] at held

theorem lookup_of_fieldsHold {fields : List (String × Node)} {entries : List (String × Value)}
    (held : FieldsHold fields entries) (key : String) :
    Option.Rel (fun n v => Node.holds n v = true) (fields.lookup key) (entries.lookup key) := by
  induction held with
  | nil => exact .none
  | @cons field entry _ _ same _ ih =>
    obtain ⟨name, node⟩ := field
    obtain ⟨rfl, hold⟩ := same
    rw [List.lookup_cons, List.lookup_cons]
    split
    · exact .some hold
    · exact ih

/-- A document has nodes exactly where the value that it holds has values. -/
theorem at?_of_holds {n : Node} {v : Value} (held : n.holds v = true) (path : List String) :
    d.at? path n = none ↔ v.at? path = none := by
  induction path generalizing n v with
  | nil => simp [Document.at?, Value.at?]
  | cons key path ih =>
    cases v with
    | mapping entries =>
      cases n with
      | mapping nodes =>
        obtain ⟨fields, same, hold⟩ := fields_of_entriesHold d held
        have found := lookup_of_fieldsHold hold key
        simp only [Document.at?, Value.at?, same, Option.bind_some]
        generalize fields.lookup key = below at found ⊢
        generalize entries.lookup key = written at found ⊢
        cases found with
        | none => simp
        | some hold => exact ih hold
      | scalar text style tag => cases style <;> simp [Node.holds] at held
      | _ => simp [Node.holds] at held
    | _ => simp [Document.at?, Value.at?, lookup_of_scalar d held nofun]

end Readers

/-! ### The fields of a section -/

@[simp] theorem filter_entryUnless (skip : Bool) (name key : String) (v : Value) :
    (entryUnless skip name v).filter (fun e => e.1 == key) =
      if name = key then entryUnless skip name v else [] := by
  unfold entryUnless
  split <;> simp [List.filter_cons]

@[simp] theorem filter_entry (name key : String) (v : Value) :
    (entry name v).filter (fun e => e.1 == key) = if name = key then [(name, v)] else [] := by
  simp [entry, List.filter_cons]

namespace Yaml.FieldsHold

variable {α : Type} {fields : List (String × Node)} {entries : List (String × Value)}
  {key : String} {v : Value} {read : Node → Option α} {a absent : α}

theorem named (held : FieldsHold fields entries) (key : String) :
    FieldsHold (fields.filter fun f => f.1 == key) (entries.filter fun e => e.1 == key) :=
  List.rel_filter (fun _ _ same => by simp [same.1]) held

/-- A field that may be left out is read as what it was written from, if it is left out
only where the default says the same. -/
theorem optional (held : FieldsHold fields entries) (skip : Bool)
    (found : (entries.filter fun e => e.1 == key) = entryUnless skip key v)
    (reads : Reads read v a) (empty : skip = true → absent = a) :
    readField fields key read absent = some a := by
  have same := found ▸ held.named key
  unfold readField
  cases skip with
  | true =>
    rw [List.forall₂_nil_right_iff.1 same]
    exact congrArg some (empty rfl)
  | false =>
    obtain ⟨field, rest, ⟨_, hold⟩, isNil, alone⟩ := List.forall₂_cons_right_iff.1 same
    rw [alone, List.forall₂_nil_right_iff.1 isNil]
    exact reads field.2 hold

theorem present (held : FieldsHold fields entries)
    (found : (entries.filter fun e => e.1 == key) = [(key, v)]) (reads : Reads read v a) :
    readField fields key read absent = some a :=
  held.optional false found reads nofun

theorem unlessDefault [DecidableEq α] (held : FieldsHold fields entries)
    (found : (entries.filter fun e => e.1 == key) = entryUnless (a == absent) key v)
    (reads : Reads read v a) : readField fields key read absent = some a :=
  held.optional (a == absent) found reads fun same => (eq_of_beq same).symm

end Yaml.FieldsHold

end ImagePipeline
