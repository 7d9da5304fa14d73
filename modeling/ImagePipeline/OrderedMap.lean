/-! Maps from names to values that list their entries in the order of the names. -/
namespace ImagePipeline

/-- The names ascend strictly, so two maps with the same content are equal. -/
structure OrderedMap (α : Type) where
  entries : List (String × α)
  ascending : entries.Pairwise fun a b => a.1 < b.1

namespace OrderedMap

variable {α : Type}

theorem eq_of_entries {a b : OrderedMap α} (h : a.entries = b.entries) : a = b := by
  cases a
  cases b
  simp_all

instance [DecidableEq α] : DecidableEq (OrderedMap α) := fun a b =>
  if h : a.entries = b.entries then isTrue (eq_of_entries h)
  else isFalse fun e => h (by rw [e])

instance [Repr α] : Repr (OrderedMap α) := ⟨fun m n => reprPrec m.entries n⟩

def empty : OrderedMap α := ⟨[], .nil⟩

instance : Inhabited (OrderedMap α) := ⟨empty⟩

def isEmpty (m : OrderedMap α) : Bool := m.entries.isEmpty

def get? (m : OrderedMap α) (name : String) : Option α := m.entries.lookup name

def names (m : OrderedMap α) : List String := m.entries.map Prod.fst

def insertEntry (name : String) (value : α) : List (String × α) → List (String × α)
  | [] => [(name, value)]
  | (other, kept) :: rest =>
    if name < other then (name, value) :: (other, kept) :: rest
    else if name = other then (name, value) :: rest
    else (other, kept) :: insertEntry name value rest

theorem mem_insertEntry {name : String} {value : α} {l : List (String × α)} {e : String × α}
    (h : e ∈ insertEntry name value l) : e = (name, value) ∨ e ∈ l := by
  induction l with
  | nil => simpa [insertEntry] using h
  | cons head rest ih =>
    obtain ⟨other, kept⟩ := head
    simp only [insertEntry] at h
    split at h
    · simpa using h
    · split at h
      · rcases List.mem_cons.1 h with h | h
        · exact .inl h
        · exact .inr (List.mem_cons_of_mem _ h)
      · rcases List.mem_cons.1 h with h | h
        · exact .inr (h ▸ List.mem_cons_self)
        · rcases ih h with h | h
          · exact .inl h
          · exact .inr (List.mem_cons_of_mem _ h)

theorem insertEntry_ascending (name : String) (value : α) {l : List (String × α)}
    (h : l.Pairwise fun a b => a.1 < b.1) :
    (insertEntry name value l).Pairwise fun a b => a.1 < b.1 := by
  induction l with
  | nil => simp [insertEntry]
  | cons head rest ih =>
    obtain ⟨other, kept⟩ := head
    obtain ⟨first, tail⟩ := List.pairwise_cons.1 h
    simp only [insertEntry]
    split
    · rename_i before
      refine List.pairwise_cons.2 ⟨fun e he => ?_, h⟩
      rcases List.mem_cons.1 he with he | he
      · exact he ▸ before
      · exact String.lt_trans before (first e he)
    · split
      · rename_i same
        exact List.pairwise_cons.2 ⟨fun e he => same ▸ first e he, tail⟩
      · rename_i notBefore notSame
        have after : other < name := by
          rcases Decidable.em (other < name) with h | h
          · exact h
          · have same := String.le_antisymm (String.not_lt.1 h) (String.not_lt.1 notBefore)
            exact absurd same notSame
        refine List.pairwise_cons.2 ⟨fun e he => ?_, ih tail⟩
        rcases mem_insertEntry he with he | he
        · exact he ▸ after
        · exact first e he

/-- A name that is present gets the new value. -/
def insert (m : OrderedMap α) (name : String) (value : α) : OrderedMap α :=
  ⟨insertEntry name value m.entries, insertEntry_ascending name value m.ascending⟩

/-- Of two values for a name the later one counts. -/
def ofList (l : List (String × α)) : OrderedMap α :=
  l.foldl (fun m e => m.insert e.1 e.2) empty

theorem insertEntry_last {name : String} (value : α) {l : List (String × α)}
    (after : ∀ e ∈ l, e.1 < name) : insertEntry name value l = l ++ [(name, value)] := by
  induction l with
  | nil => rfl
  | cons head rest ih =>
    obtain ⟨other, kept⟩ := head
    have before : other < name := after (other, kept) List.mem_cons_self
    have notBefore : ¬name < other := String.lt_asymm before
    have notSame : name ≠ other := fun same => String.lt_irrefl other (same ▸ before)
    rw [insertEntry, if_neg notBefore, if_neg notSame,
      ih fun e he => after e (List.mem_cons_of_mem _ he), List.cons_append]

/-- Entries that ascend behind those of a map are added in their order. -/
theorem foldl_insert {l : List (String × α)} {m : OrderedMap α}
    (ascending : (m.entries ++ l).Pairwise fun a b => a.1 < b.1) :
    (l.foldl (fun m e => m.insert e.1 e.2) m).entries = m.entries ++ l := by
  induction l generalizing m with
  | nil => simp
  | cons e rest ih =>
    have added : (m.insert e.1 e.2).entries = m.entries ++ [e] :=
      insertEntry_last e.2 fun a ha =>
        (List.pairwise_append.1 ascending).2.2 a ha e List.mem_cons_self
    have more : ((m.insert e.1 e.2).entries ++ rest).Pairwise fun a b => a.1 < b.1 := by
      simpa [added] using ascending
    simpa [added] using ih more

theorem ofList_entries (m : OrderedMap α) : ofList m.entries = m := by
  have same : (ofList m.entries).entries = m.entries := foldl_insert m.ascending
  exact eq_of_entries same

end OrderedMap

end ImagePipeline
