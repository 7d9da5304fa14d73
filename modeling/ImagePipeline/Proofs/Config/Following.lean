import ImagePipeline.Proofs.Yaml.Revision

/-! Readers that follow revisions: they take what is gone as its default and everything else as it
was. A section is read field by field, so its reader follows if the readers of its fields do. -/
namespace ImagePipeline

open Yaml (Document Node)

variable {α β : Type}

/-- What is read once is read again, with a change. -/
def Carries (change : α → α) (first second : Option α) : Prop :=
  ∀ a, first = some a → second = some (change a)

namespace Carries

variable {change : α → α} {finish : β → β} {first second : Option α}

theorem bind {k k' : α → Option β} (carried : Carries change first second)
    (next : ∀ a, Carries finish (k a) (k' (change a))) :
    Carries finish (first >>= k) (second >>= k') := by
  intro b found
  obtain ⟨a, here, behind⟩ := Option.bind_eq_some_iff.mp found
  rw [carried a here]
  exact next a b behind

theorem map {build : α → β} (carried : Carries change first second)
    (same : ∀ a, finish (build a) = build (change a)) :
    Carries finish (first.map build) (second.map build) := by
  intro b found
  obtain ⟨a, here, rfl⟩ := Option.map_eq_some_iff.mp found
  rw [carried a here, same]
  rfl

end Carries

/-- A reader of what a schema describes follows revisions: the result is the former one, without
what is gone. Whatever it reads has a revision for any keys that are to go. A result that is
absent stays so. -/
structure FollowsRevisions (schema : Schema) (read : Document → Node → Option α)
    (without : Removal → α → α) (absent : α) : Prop where
  revised {d d' : Document} {gone : Removal} {n n' : Node} :
    Revised d d' schema gone n n' → Carries (without gone) (read d n) (read d' n')
  revisable {d : Document} {n : Node} {a : α} (gone : Removal) : read d n = some a →
    ∃ n', ∀ m, Revised d (.single m) schema gone n n'
  absent (gone : Removal) : without gone absent = absent

/-! ### Values -/

/-- A reader of values follows if it does not tell values apart that are the same. -/
theorem FollowsRevisions.of_sameValue {read : Document → Node → Option α}
    (same : ∀ {d d' : Document} {n n' : Node}, d.SameValue d' n n' → read d' n' = read d n)
    (copies : ∀ {d : Document} {n : Node} {a : α}, read d n = some a → d.Copies n) (absent : α) :
    FollowsRevisions .value read (fun _ a => a) absent where
  revised revised := by
    intro a found
    cases revised with
    | value alike => rw [same alike, found]
  revisable _ found := by
    obtain ⟨n', alike⟩ := copies found
    exact ⟨n', fun m => .value (alike m)⟩
  absent _ := rfl

theorem FollowsRevisions.map {schema : Schema} {read : Document → Node → Option α}
    {without : Removal → α → α} {absent : α}
    (follows : FollowsRevisions schema read without absent) {build : α → β}
    {without' : Removal → β → β}
    (same : ∀ gone a, without' gone (build a) = build (without gone a)) :
    FollowsRevisions schema (fun d n => (read d n).map build) without' (build absent) where
  revised revised := (follows.revised revised).map (same _)
  revisable gone found := by
    obtain ⟨a, here, -⟩ := Option.map_eq_some_iff.mp found
    exact follows.revisable gone here
  absent gone := by rw [same, follows.absent]

theorem follows_text : FollowsRevisions .value Document.text? (fun _ s => s) "" :=
  .of_sameValue Document.SameValue.text Document.copies_of_text _

theorem follows_bool : FollowsRevisions .value Document.bool? (fun _ b => b) false :=
  .of_sameValue Document.SameValue.bool Document.copies_of_bool _

theorem follows_int32 (absent : Int32) :
    FollowsRevisions .value Document.int32? (fun _ i => i) absent :=
  .of_sameValue Document.SameValue.int32 Document.copies_of_int32 _

theorem follows_uint32 (absent : UInt32) :
    FollowsRevisions .value Document.uint32? (fun _ i => i) absent :=
  .of_sameValue Document.SameValue.uint32 Document.copies_of_uint32 _

theorem follows_texts : FollowsRevisions .value Document.texts? (fun _ l => l) [] :=
  .of_sameValue Document.SameValue.texts Document.copies_of_texts _

/-! ### Fields -/

section Fields

variable {d d' : Document} {gone : Removal} {entries entries' : List (String × Node)}
  {kept : List KeptEntry} {key : String} {inner : Schema} {read : Document → Node → Option α}
  {without : Removal → α → α} {absent : α}

/-- Of the entries of one key, those that stay are the ones that a revision has. -/
theorem filter_key_of_kept
    (stays : (entries.filter fun e => !gone [e.1]) = kept.map KeptEntry.before) :
    (kept.filter fun e => e.key == key).map KeptEntry.before =
      if gone [key] then [] else entries.filter fun e => e.1 == key := by
  have both : (kept.filter fun e => e.key == key).map KeptEntry.before =
      entries.filter fun e => e.1 == key && !gone [e.1] := by
    rw [← List.filter_filter, stays, List.filter_map]
    rfl
  rw [both]
  split
  · rename_i left
    rw [List.filter_eq_nil_iff]
    intro e _ found
    rw [Bool.and_eq_true, beq_iff_eq] at found
    simp [found.1, left] at found
  · rename_i stayed
    refine List.filter_congr fun e _ => ?_
    by_cases here : e.1 = key
    · simp [here, stayed]
    · simp [here]

/-- A field is carried on by the entries of its key that stay. -/
theorem FollowsRevisions.field (follows : FollowsRevisions inner read without absent)
    (stays : kept.map KeptEntry.before =
      if gone [key] then [] else entries.filter fun e => e.1 == key)
    (revision : (entries'.filter fun e => e.1 == key).Perm (kept.map KeptEntry.after))
    (inside : ∀ e ∈ kept, Revised d d' inner (gone.below key) e.old e.new) :
    Carries (fun a => gone.field key absent (without (gone.below key) a))
      (readField entries key (read d) absent) (readField entries' key (read d') absent) := by
  intro a found
  change _ = some (gone.field key absent (without (gone.below key) a))
  split at stays
  · rename_i left
    rw [List.map_eq_nil_iff.mp stays, List.map_nil, List.perm_nil] at revision
    rw [readField, revision, Removal.field, if_pos left]
  · rename_i stayed
    rw [Removal.field, if_neg stayed]
    unfold readField at found
    split at found
    · rename_i missing
      cases found
      rw [missing, List.map_eq_nil_iff] at stays
      rw [stays, List.map_nil, List.perm_nil] at revision
      rw [readField, revision, follows.absent]
    · rename_i node single
      rw [single] at stays
      obtain ⟨e, rfl, same⟩ := List.map_eq_singleton_iff.mp stays
      rw [List.map_singleton, List.perm_singleton] at revision
      rw [readField, revision]
      obtain ⟨-, rfl⟩ := Prod.mk.inj same
      exact follows.revised (inside e List.mem_cons_self) a found
    · cases found

/-- What stands under the key of a field that is read has a revision. -/
theorem FollowsRevisions.revisable_field (follows : FollowsRevisions inner read without absent)
    {a : α} (found : readField entries key (read d) absent = some a) (gone : Removal) :
    ∀ e ∈ entries, e.1 = key → ∃ new, ∀ m, Revised d (.single m) inner gone e.2 new := by
  intro e member here
  have own : e ∈ entries.filter fun f => f.1 == key := by simp [member, here]
  unfold readField at found
  split at found
  · rename_i missing
    rw [missing] at own
    cases own
  · rename_i node single
    rw [single] at own
    obtain rfl := List.mem_singleton.mp own
    exact follows.revisable gone found
  · cases found

end Fields

/-! ### Sections -/

/-- A section and its revision are read alike: one field after the other, each by a reader that
follows, and at the end the results are put together. -/
inductive FieldByField (d d' : Document) (gone : Removal) (entries entries' : List (String × Node))
    (finish : α → α) : List (String × Schema) → Option α → Option α → Prop where
  | done {a b : α} : b = finish a → FieldByField d d' gone entries entries' finish []
      (pure a) (pure b)
  | next {β : Type} {key : String} {inner : Schema} {keys : List (String × Schema)}
      {read : Document → Node → Option β} {without : Removal → β → β} {absent : β}
      {k k' : β → Option α} : FollowsRevisions inner read without absent →
      (∀ b, FieldByField d d' gone entries entries' finish keys (k b)
        (k' (gone.field key absent (without (gone.below key) b)))) →
      FieldByField d d' gone entries entries' finish ((key, inner) :: keys)
        (readField entries key (read d) absent >>= k)
        (readField entries' key (read d') absent >>= k')

/-- The entries that stay and those that are added make up the entries of a revised section. -/
structure FieldsRevised (d d' : Document) (gone : Removal) (keys : List (String × Schema))
    (entries entries' : List (String × Node)) (kept : List KeptEntry)
    (added : List (String × Node)) : Prop where
  stays : (entries.filter fun e => !gone [e.1]) = kept.map KeptEntry.before
  order : entries'.Perm (kept.map KeptEntry.after ++ added)
  unknown : ∀ e ∈ added, ∀ inner, (e.1, inner) ∉ keys
  inside : ∀ e ∈ kept, ∀ inner, (e.key, inner) ∈ keys →
    Revised d d' inner (gone.below e.key) e.old e.new

section Sections

variable {d d' : Document} {gone : Removal} {entries entries' added : List (String × Node)}
  {kept : List KeptEntry} {finish : α → α} {keys : List (String × Schema)}
  {first second : Option α}

theorem FieldsRevised.carries {read : Document → Node → Option β} {without : Removal → β → β}
    {absent : β} {key : String} {inner : Schema}
    (revised : FieldsRevised d d' gone keys entries entries' kept added)
    (known : (key, inner) ∈ keys) (follows : FollowsRevisions inner read without absent) :
    Carries (fun a => gone.field key absent (without (gone.below key) a))
      (readField entries key (read d) absent) (readField entries' key (read d') absent) := by
  have others : (added.filter fun e => e.1 == key) = [] := by
    rw [List.filter_eq_nil_iff]
    intro e member same
    rw [beq_iff_eq] at same
    exact revised.unknown e member inner (same ▸ known)
  refine follows.field (filter_key_of_kept revised.stays) ?_ fun e member => ?_
  · have revision := revised.order.filter fun e => e.1 == key
    rwa [List.filter_append, others, List.append_nil, List.filter_map] at revision
  · obtain ⟨stayed, same⟩ := List.mem_filter.mp member
    rw [beq_iff_eq] at same
    subst same
    exact revised.inside e stayed inner known

theorem FieldsRevised.tail {key : String × Schema}
    (revised : FieldsRevised d d' gone (key :: keys) entries entries' kept added) :
    FieldsRevised d d' gone keys entries entries' kept added where
  stays := revised.stays
  order := revised.order
  unknown e member inner known := revised.unknown e member inner (List.mem_cons_of_mem _ known)
  inside e member inner known := revised.inside e member inner (List.mem_cons_of_mem _ known)

theorem FieldByField.carries
    (reading : FieldByField d d' gone entries entries' finish keys first second)
    (revised : FieldsRevised d d' gone keys entries entries' kept added) :
    Carries finish first second := by
  induction reading with
  | done same =>
    intro _ found
    cases found
    exact congrArg some same
  | next follows _ ih =>
    exact (revised.carries List.mem_cons_self follows).bind fun b => ih b revised.tail

/-- What stands under the known keys of a section that is read has a revision. -/
theorem FieldByField.revisable {a : α}
    (reading : FieldByField d d' gone entries entries' finish keys first second)
    (found : first = some a) (removal : Removal) :
    ∀ e ∈ entries, ∀ inner, (e.1, inner) ∈ keys →
      ∃ new, ∀ m, Revised d (.single m) inner (removal.below e.1) e.2 new := by
  induction reading with
  | done => exact fun _ _ _ => nofun
  | next follows _ ih =>
    obtain ⟨b, here, behind⟩ := Option.bind_eq_some_iff.mp found
    intro e member inner known
    rcases List.mem_cons.mp known with same | known
    · obtain ⟨rfl, rfl⟩ := Prod.mk.inj same
      exact follows.revisable_field here _ e member rfl
    · exact ih b behind e member inner known

/-- A section follows if it is read field by field. -/
theorem FollowsRevisions.of_fields {read : Document → List (String × Node) → Option α}
    {without : Removal → α → α} {absent : α} (distinct : (keys.map Prod.fst).Nodup)
    (reading : ∀ d d' gone entries entries',
      FieldByField d d' gone entries entries' (without gone) keys (read d entries)
        (read d' entries'))
    (same : ∀ gone, without gone absent = absent) :
    FollowsRevisions (.fields keys) (fun d n => d.fields? n >>= read d) without absent where
  revised {d d' gone n n'} revised := by
    cases revised with
    | fields here there stays order unknown inside =>
      rw [here, there]
      exact (reading d d' gone _ _).carries ⟨stays, order, unknown, inside⟩
  revisable {d n a} gone found := by
    obtain ⟨entries, here, found⟩ := Option.bind_eq_some_iff.mp found
    exact Revised.exists_fields here distinct
      ((reading d d gone entries entries).revisable found gone)
  absent := same

end Sections

end ImagePipeline
