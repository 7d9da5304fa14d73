import ImagePipeline.Config.Document
import Mathlib.Data.List.Nodup
import Mathlib.Data.List.Perm.Basic

/-! Revisions of a document. In a section the keys are put in another order, keys that the section
does not know come and go, and known ones are left out; what stays under a known key is the same
value or is revised in its turn. -/
namespace ImagePipeline

open Yaml (Document Node)

/-! ### Values -/

namespace Yaml.Document

variable {d d' : Document} {n n' : Node}

/-- Nodes that stand for the same scalar, or for sequences of the same items. Where an alias
stands for a node does not matter. -/
inductive SameValue (d d' : Document) : Node → Node → Prop where
  | scalar {n n' : Node} {text : String} {style : ScalarStyle} {tag : Option String} :
      d.resolve n = some (.scalar text style tag) →
      d'.resolve n' = some (.scalar text style tag) → SameValue d d' n n'
  | sequence {n n' : Node} {items : List (Node × Node)} :
      d.resolve n = some (.sequence (items.map Prod.fst)) →
      d'.resolve n' = some (.sequence (items.map Prod.snd)) →
      (∀ e ∈ items, SameValue d d' e.1 e.2) → SameValue d d' n n'

namespace SameValue

theorem text (same : SameValue d d' n n') : d'.text? n' = d.text? n := by
  cases same with
  | scalar here there => simp only [text?, here, there]
  | sequence here there => simp only [text?, here, there]

theorem meaningful (same : SameValue d d' n n') (tag : String) :
    d'.meaningful? tag n' = d.meaningful? tag n := by
  cases same with
  | scalar here there => simp only [meaningful?, here, there]
  | sequence here there => simp only [meaningful?, here, there]

theorem bool (same : SameValue d d' n n') : d'.bool? n' = d.bool? n := by
  simp only [bool?, same.meaningful]

theorem int32 (same : SameValue d d' n n') : d'.int32? n' = d.int32? n := by
  simp only [int32?, same.meaningful]

theorem uint32 (same : SameValue d d' n n') : d'.uint32? n' = d.uint32? n := by
  simp only [uint32?, same.meaningful]

theorem mapM_text {items : List (Node × Node)} (same : ∀ e ∈ items, SameValue d d' e.1 e.2) :
    (items.map Prod.snd).mapM d'.text? = (items.map Prod.fst).mapM d.text? := by
  induction items with
  | nil => rfl
  | cons e items ih =>
    obtain ⟨first, others⟩ := List.forall_mem_cons.mp same
    rw [List.map_cons, List.map_cons, List.mapM_cons, List.mapM_cons, first.text, ih others]

theorem texts (same : SameValue d d' n n') : d'.texts? n' = d.texts? n := by
  cases same with
  | scalar here there =>
    simp only [texts?, items?, here, there]
    split <;> rfl
  | sequence here there each =>
    simp only [texts?, items?, here, there]
    exact mapM_text each

end SameValue

/-- A document of one node, in which no alias stands for another. -/
def single (n : Node) : Document where
  root := some n

/-- The value can be written again in any such document. -/
def Copies (d : Document) (n : Node) : Prop := ∃ n', ∀ m, SameValue d (single m) n n'

theorem copies_of_scalar {text : String} {style : ScalarStyle} {tag : Option String}
    (here : d.resolve n = some (.scalar text style tag)) : d.Copies n :=
  ⟨.scalar text style tag, fun _ => .scalar here rfl⟩

theorem copies_of_text {s : String} (read : d.text? n = some s) : d.Copies n := by
  unfold text? at read
  split at read
  · rename_i here
    exact copies_of_scalar here
  · cases read

theorem copies_of_meaningful {s tag : String} (read : d.meaningful? tag n = some s) :
    d.Copies n := by
  unfold meaningful? at read
  split at read
  · rename_i here
    exact copies_of_scalar here
  · rename_i here
    exact copies_of_scalar here
  · cases read

theorem copies_of_bool {b : Bool} (read : d.bool? n = some b) : d.Copies n := by
  obtain ⟨_, meant, -⟩ := Option.bind_eq_some_iff.mp read
  exact copies_of_meaningful meant

theorem copies_of_int32 {i : Int32} (read : d.int32? n = some i) : d.Copies n := by
  obtain ⟨_, meant, -⟩ := Option.bind_eq_some_iff.mp read
  exact copies_of_meaningful meant

theorem copies_of_uint32 {i : UInt32} (read : d.uint32? n = some i) : d.Copies n := by
  obtain ⟨_, meant, -⟩ := Option.bind_eq_some_iff.mp read
  exact copies_of_meaningful meant

theorem copies_items {items : List Node} {texts : List String}
    (read : items.mapM d.text? = some texts) : ∃ pairs : List (Node × Node),
      items = pairs.map Prod.fst ∧ ∀ m, ∀ e ∈ pairs, SameValue d (single m) e.1 e.2 := by
  induction items generalizing texts with
  | nil => exact ⟨[], rfl, fun _ => nofun⟩
  | cons item items ih =>
    rw [List.mapM_cons] at read
    obtain ⟨s, first, read⟩ := Option.bind_eq_some_iff.mp read
    obtain ⟨others, behind, -⟩ := Option.bind_eq_some_iff.mp read
    obtain ⟨item', same⟩ := copies_of_text first
    obtain ⟨pairs, rfl, each⟩ := ih behind
    exact ⟨(item, item') :: pairs, rfl, fun m => List.forall_mem_cons.mpr ⟨same m, each m⟩⟩

theorem copies_of_texts {l : List String} (read : d.texts? n = some l) : d.Copies n := by
  obtain ⟨items, found, read⟩ := Option.bind_eq_some_iff.mp read
  unfold items? at found
  split at found
  · rename_i here
    cases found
    obtain ⟨pairs, rfl, each⟩ := copies_items read
    exact ⟨.sequence (pairs.map Prod.snd), fun m => .sequence here rfl (each m)⟩
  · rename_i node _ here
    split at found
    · rename_i nothing
      cases node with
      | scalar => exact copies_of_scalar here
      | _ => cases nothing
    · cases found
  · cases found

/-- A mapping with plain names for keys has the entries of these names. -/
theorem fields?_single (m : Node) (entries : List (String × Node)) :
    (single m).fields? (.mapping (entries.map fun e => (Node.text e.1, e.2))) = some entries := by
  simp only [fields?, resolve]
  induction entries with
  | nil => rfl
  | cons e entries ih =>
    rw [List.map_cons, List.mapM_cons, ih]
    rfl

end Yaml.Document

/-! ### Revisions -/

/-- Which keys are gone, each named behind the keys that lead to it. -/
abbrev Removal := List String → Bool

namespace Removal

/-- What is gone below a key. -/
def below (gone : Removal) (key : String) : Removal := fun path => gone (key :: path)

/-- A field is as absent if its key is gone. -/
def field {α : Type} (gone : Removal) (key : String) (absent present : α) : α :=
  if gone [key] then absent else present

@[simp] theorem field_same {α : Type} (gone : Removal) (key : String) (a : α) :
    gone.field key a a = a := by
  simp [field]

def nothing : Removal := fun _ => false

@[simp] theorem below_nothing (key : String) : nothing.below key = nothing := rfl

@[simp] theorem field_nothing {α : Type} (key : String) (absent present : α) :
    nothing.field key absent present = present := rfl

end Removal

/-- What stands in a place of a document: a value, a section with the keys that it knows, or rows
of one kind under names that anybody may give. -/
inductive Schema where
  | value
  | fields (keys : List (String × Schema))
  | table (row : Schema)

/-- An entry that stays: its key, and what stands behind that in either document. -/
structure KeptEntry where
  key : String
  old : Node
  new : Node

namespace KeptEntry

def before (e : KeptEntry) : String × Node := (e.key, e.old)

def after (e : KeptEntry) : String × Node := (e.key, e.new)

end KeptEntry

/-- One document is a revision of the other from a place of the schema on. In a section the order
of the entries is free. In a table it is free for rows of different names: of several rows under
one name the last one counts. -/
inductive Revised (d d' : Document) : Schema → Removal → Node → Node → Prop where
  | value {gone : Removal} {n n' : Node} : d.SameValue d' n n' → Revised d d' .value gone n n'
  | fields {keys : List (String × Schema)} {gone : Removal} {n n' : Node}
      {entries entries' added : List (String × Node)} {kept : List KeptEntry} :
      d.fields? n = some entries → d'.fields? n' = some entries' →
      (entries.filter fun e => !gone [e.1]) = kept.map KeptEntry.before →
      entries'.Perm (kept.map KeptEntry.after ++ added) →
      (∀ e ∈ added, ∀ inner, (e.1, inner) ∉ keys) →
      (∀ e ∈ kept, ∀ inner, (e.key, inner) ∈ keys →
        Revised d d' inner (gone.below e.key) e.old e.new) →
      Revised d d' (.fields keys) gone n n'
  | table {row : Schema} {gone : Removal} {n n' : Node} {entries entries' : List (String × Node)}
      {kept : List KeptEntry} :
      d.fields? n = some entries → d'.fields? n' = some entries' →
      (entries.filter fun e => !gone [e.1]) = kept.map KeptEntry.before →
      (∀ name, (entries'.filter fun e => e.1 == name) =
        (kept.map KeptEntry.after).filter fun e => e.1 == name) →
      (∀ e ∈ kept, Revised d d' row (gone.below e.key) e.old e.new) →
      Revised d d' (.table row) gone n n'

/-! ### Revisions of any document -/

theorem exists_kept {P : String × Node → Node → Prop} {entries : List (String × Node)}
    (each : ∀ e ∈ entries, ∃ new, P e new) :
    ∃ kept : List KeptEntry, entries = kept.map KeptEntry.before ∧
      ∀ e ∈ kept, P e.before e.new := by
  induction entries with
  | nil => exact ⟨[], rfl, nofun⟩
  | cons e entries ih =>
    obtain ⟨⟨new, first⟩, others⟩ := List.forall_mem_cons.mp each
    obtain ⟨kept, rfl, behind⟩ := ih others
    exact ⟨⟨e.1, e.2, new⟩ :: kept, rfl, List.forall_mem_cons.mpr ⟨first, behind⟩⟩

section Existence

variable {d : Document} {n : Node} {gone : Removal} {entries : List (String × Node)}

/-- Any keys of a section may go, if what stays under the known ones can be revised. -/
theorem Revised.exists_fields {keys : List (String × Schema)} (here : d.fields? n = some entries)
    (distinct : (keys.map Prod.fst).Nodup)
    (each : ∀ e ∈ entries, ∀ inner, (e.1, inner) ∈ keys →
      ∃ new, ∀ m, Revised d (.single m) inner (gone.below e.1) e.2 new) :
    ∃ n', ∀ m, Revised d (.single m) (.fields keys) gone n n' := by
  have known : ∀ e ∈ entries.filter fun e => !gone [e.1], ∃ new, ∀ m inner,
      (e.1, inner) ∈ keys → Revised d (.single m) inner (gone.below e.1) e.2 new := by
    intro e member
    by_cases known : ∃ inner, (e.1, inner) ∈ keys
    · obtain ⟨inner, known⟩ := known
      obtain ⟨new, revised⟩ := each e (List.mem_of_mem_filter member) inner known
      refine ⟨new, fun m other also => ?_⟩
      have same := List.inj_on_of_nodup_map distinct known also rfl
      rw [← (Prod.mk.inj same).2]
      exact revised m
    · exact ⟨e.2, fun m inner also => absurd ⟨inner, also⟩ known⟩
  obtain ⟨kept, stays, inside⟩ := exists_kept known
  refine ⟨.mapping ((kept.map KeptEntry.after).map fun e => (Node.text e.1, e.2)), fun m => ?_⟩
  exact @Revised.fields _ _ _ _ _ _ _ _ [] kept here (Document.fields?_single m _) stays
    (by rw [List.append_nil]) nofun fun e member inner known => inside e member m inner known

theorem Revised.exists_table {row : Schema} (here : d.fields? n = some entries)
    (each : ∀ e ∈ entries, ∃ new, ∀ m, Revised d (.single m) row (gone.below e.1) e.2 new) :
    ∃ n', ∀ m, Revised d (.single m) (.table row) gone n n' := by
  obtain ⟨kept, stays, inside⟩ := exists_kept fun e member =>
    each e (List.mem_of_mem_filter (p := fun e => !gone [e.1]) member)
  refine ⟨.mapping ((kept.map KeptEntry.after).map fun e => (Node.text e.1, e.2)), fun m => ?_⟩
  exact .table here (Document.fields?_single m _) stays (fun _ => rfl)
    fun e member => inside e member m

end Existence

end ImagePipeline
