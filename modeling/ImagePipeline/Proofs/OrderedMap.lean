import ImagePipeline.OrderedMap

/-! Looking names up in an ordered map: behind an insertion, in a map that is made of a list, and
where some names are left out. A map is known by what it has under each name. -/
namespace ImagePipeline.OrderedMap

variable {α : Type}

theorem lookup_cons_if (name first : String) (value : α) (l : List (String × α)) :
    ((first, value) :: l).lookup name = if name = first then some value else l.lookup name := by
  by_cases same : name = first
  · simp [same]
  · rw [List.lookup_cons, beq_eq_false_iff_ne.mpr same, if_neg same]

theorem lookup_insertEntry (name other : String) (value : α) (l : List (String × α)) :
    (insertEntry name value l).lookup other =
      if other = name then some value else l.lookup other := by
  induction l with
  | nil => exact lookup_cons_if other name value []
  | cons head rest ih =>
    obtain ⟨first, kept⟩ := head
    rw [insertEntry]
    split
    · exact lookup_cons_if other name value _
    · split
      · rename_i replaced
        subst replaced
        simp only [lookup_cons_if]
        split <;> rfl
      · rename_i apart
        rw [lookup_cons_if, lookup_cons_if, ih]
        by_cases same : other = first
        · rw [if_pos same, if_pos same, if_neg (same ▸ Ne.symm apart)]
        · rw [if_neg same, if_neg same]

theorem get?_insert (m : OrderedMap α) (name other : String) (value : α) :
    (m.insert name value).get? other = if other = name then some value else m.get? other :=
  lookup_insertEntry name other value m.entries

theorem lookup_eq_none_of_before {name : String} {l : List (String × α)}
    (before : ∀ e ∈ l, name < e.1) : l.lookup name = none := by
  rw [List.lookup_eq_none_iff]
  intro e member
  have apart : name ≠ e.1 := fun same => String.lt_irrefl _ (same ▸ before e member)
  simpa using apart

theorem eq_of_lookup {l k : List (String × α)} (ascending : l.Pairwise fun a b => a.1 < b.1)
    (ascending' : k.Pairwise fun a b => a.1 < b.1)
    (same : ∀ name, l.lookup name = k.lookup name) : l = k := by
  induction l generalizing k with
  | nil =>
    cases k with
    | nil => rfl
    | cons e' k =>
      have here := same e'.1
      rw [lookup_cons_if, if_pos rfl] at here
      cases here
  | cons e l ih =>
    obtain ⟨after, others⟩ := List.pairwise_cons.mp ascending
    have there := same e.1
    rw [lookup_cons_if, if_pos rfl] at there
    cases k with
    | nil => cases there
    | cons e' k =>
      obtain ⟨after', others'⟩ := List.pairwise_cons.mp ascending'
      have notBefore : ¬e.1 < e'.1 := by
        intro before
        rw [lookup_eq_none_of_before (List.forall_mem_cons.mpr
          ⟨before, fun f member => String.lt_trans before (after' f member)⟩)] at there
        cases there
      have notAfter : ¬e'.1 < e.1 := by
        intro before
        have here := same e'.1
        rw [lookup_cons_if, lookup_cons_if, if_pos rfl, ← lookup_cons_if,
          lookup_eq_none_of_before (List.forall_mem_cons.mpr
            ⟨before, fun f member => String.lt_trans before (after f member)⟩)] at here
        cases here
      have names : e.1 = e'.1 :=
        String.le_antisymm (String.not_lt.mp notAfter) (String.not_lt.mp notBefore)
      rw [lookup_cons_if, if_pos names] at there
      have head : e = e' := Prod.ext names (Option.some.inj there)
      subst head
      congr 1
      refine ih others others' fun name => ?_
      by_cases first : name = e.1
      · rw [first, lookup_eq_none_of_before after, lookup_eq_none_of_before after']
      · have behind := same name
        rwa [lookup_cons_if, lookup_cons_if, if_neg first, if_neg first] at behind

/-- Two maps that have the same under every name are one. -/
theorem eq_of_get? {a b : OrderedMap α} (same : ∀ name, a.get? name = b.get? name) : a = b :=
  eq_of_entries (eq_of_lookup a.ascending b.ascending same)

theorem get?_foldl_insert (l : List (String × α)) (m : OrderedMap α) (name : String) :
    (l.foldl (fun m e => m.insert e.1 e.2) m).get? name =
      (((l.filter fun e => e.1 == name).getLast?).map Prod.snd).or (m.get? name) := by
  induction l generalizing m with
  | nil => rfl
  | cons e l ih =>
    rw [List.foldl_cons, ih, get?_insert]
    by_cases here : e.1 = name
    · rw [if_pos here.symm, List.filter_cons_of_pos (by simp [here]), List.getLast?_cons]
      cases (l.filter fun e => e.1 == name).getLast? <;> rfl
    · rw [if_neg (Ne.symm here), List.filter_cons_of_neg (by simp [here])]

/-- Of several values for a name the last one counts. -/
theorem get?_ofList (l : List (String × α)) (name : String) :
    (ofList l).get? name = ((l.filter fun e => e.1 == name).getLast?).map Prod.snd := by
  rw [ofList, get?_foldl_insert]
  exact Option.or_none

/-- The names that stay, each with its value changed. -/
def restrict (stays : String → Bool) (change : String → α → α) (m : OrderedMap α) :
    OrderedMap α where
  entries := (m.entries.filter fun e => stays e.1).map fun e => (e.1, change e.1 e.2)
  ascending := by
    rw [List.pairwise_map]
    exact m.ascending.filter _

theorem get?_restrict (stays : String → Bool) (change : String → α → α) (m : OrderedMap α)
    (name : String) :
    (m.restrict stays change).get? name =
      if stays name then (m.get? name).map (change name) else none := by
  obtain ⟨l, ascending⟩ := m
  change ((l.filter fun e => stays e.1).map fun e => (e.1, change e.1 e.2)).lookup name =
    if stays name then (l.lookup name).map (change name) else none
  clear ascending
  induction l with
  | nil => simp
  | cons e l ih =>
    rw [lookup_cons_if]
    by_cases kept : stays e.1 = true
    · rw [List.filter_cons, if_pos kept, List.map_cons, lookup_cons_if, ih]
      by_cases here : name = e.1
      · simp [here, kept]
      · rw [if_neg here, if_neg here]
    · rw [List.filter_cons, if_neg kept, ih]
      by_cases here : name = e.1
      · simp [here, kept]
      · rw [if_neg here]

end ImagePipeline.OrderedMap
