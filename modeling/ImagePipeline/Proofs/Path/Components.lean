import ImagePipeline.Proofs.Files.Steps
import Mathlib.Data.List.TakeWhile

/-! The components of a path through joining and cutting. Joining puts components one behind the
other, trimming leaves them alone, and what is below another path has those behind that one's. -/
namespace ImagePipeline.Path

variable {p q : Path} {cs : List Char}

/-- The components that a text stands for inside a path, behind a slash. -/
def inner (cs : List Char) : List Component := (Text.splitAt '/' cs).filterMap componentOf?

theorem components_of_absolute (absolute : p.isAbsolute = true) :
    p.components = .root :: inner p.chars := by
  unfold components
  rw [absolute, if_pos rfl, inner]

theorem root_not_mem_inner (cs : List Char) : Component.root ∉ inner cs := by
  intro member
  obtain ⟨piece, -, found⟩ := List.mem_filterMap.mp member
  unfold componentOf? at found
  split at found
  · cases found
  · split at found <;> cases found

/-- Only the components of an absolute path start with the root. -/
theorem isAbsolute_of_components {rest : List Component}
    (components : p.components = .root :: rest) :
    p.isAbsolute = true ∧ inner p.chars = rest := by
  cases absolute : p.isAbsolute with
  | true =>
    rw [components_of_absolute absolute] at components
    exact ⟨rfl, (List.cons.inj components).2⟩
  | false =>
    unfold Path.components at components
    dsimp only at components
    rw [absolute, if_neg Bool.false_ne_true] at components
    split at components
    · cases (List.cons.inj components).1
    · have member : Component.root ∈ inner p.chars := by
        rw [inner, components]
        exact List.mem_cons_self
      exact absurd member (root_not_mem_inner p.chars)

/-! ### Joining and trimming -/

theorem inner_append_slash (front back : List Char) :
    inner (front ++ '/' :: back) = inner front ++ inner back := by
  rw [inner, Text.splitAt_append, List.filterMap_append, inner, inner]

theorem inner_slash (cs : List Char) : inner ('/' :: cs) = inner cs := inner_append_slash [] cs

theorem inner_join (below : q.isAbsolute = false) :
    inner (p.join q).chars = inner p.chars ++ inner q.chars := by
  rcases join_chars (p := p) below with ⟨empty, joined⟩ | ⟨front, ends, joined⟩ | joined
  · rw [joined, empty]
    rfl
  · rw [joined, ends, inner_append_slash, inner_append_slash, show inner [] = [] from rfl,
      List.append_nil]
  · rw [joined, inner_append_slash]

theorem isAbsolute_join (absolute : p.isAbsolute = true) : (p.join q).isAbsolute = true := by
  cases below : q.isAbsolute with
  | true => rwa [join, if_pos below]
  | false =>
    have start : p.chars.head? = some '/' := beq_iff_eq.mp absolute
    have first : (p.join q).chars.head? = some '/' := by
      rcases join_chars (p := p) below with ⟨empty, -⟩ | ⟨front, ends, joined⟩ | joined
      · rw [empty] at start
        cases start
      · rw [ends] at start
        rw [joined]
        cases front <;> exact start
      · rw [joined, List.head?_append, start]
        rfl
    exact beq_iff_eq.mpr first

theorem inner_trimLeft (cs : List Char) : inner (trimLeft cs) = inner cs := by
  fun_induction trimLeft cs with
  | case1 cs ih => rw [ih, inner_slash]
  | case2 => rfl
  | case3 cs ih => exact ih.trans (inner_append_slash ['.'] cs).symm
  | case4 => rfl

theorem inner_trimReversed (cs : List Char) :
    inner (trimReversed cs).reverse = inner cs.reverse := by
  fun_induction trimReversed cs with
  | case1 cs ih =>
    rw [ih, List.reverse_cons, inner_append_slash, show inner [] = [] from rfl, List.append_nil]
  | case2 => rfl
  | case3 cs ih =>
    rw [ih, List.reverse_cons, List.reverse_cons, List.append_assoc, List.singleton_append,
      inner_append_slash, show inner ['.'] = [] from rfl, List.append_nil]
  | case4 => rfl

theorem inner_trimRight (cs : List Char) : inner (trimRight cs) = inner cs := by
  rw [trimRight, inner_trimReversed, List.reverse_reverse]

theorem trimRight_prefix (cs : List Char) : trimRight cs <+: cs := by
  rcases trimRight_cut cs with nothing | same | ⟨cut, split⟩
  · exact nothing ▸ List.nil_prefix
  · exact ⟨[], by rw [same, List.append_nil]⟩
  · exact ⟨'/' :: cut, split.symm⟩

/-- No slash is left in front. -/
theorem head?_trimLeft (cs : List Char) : (trimLeft cs).head? ≠ some '/' := by
  fun_induction trimLeft cs with
  | case1 cs ih => exact ih
  | case2 => simp
  | case3 cs ih => exact ih
  | case4 cs slash => cases cs with
    | nil => simp
    | cons c cs => exact fun first => slash cs (by rw [Option.some.inj first])

/-! ### Cutting -/

theorem componentOf?_some {piece : List Char} (given : piece ≠ []) (other : piece ≠ ['.']) :
    ∃ c, componentOf? piece = some c := by
  unfold componentOf?
  rw [if_neg (by simp [given, other])]
  split
  · exact ⟨_, rfl⟩
  · exact ⟨_, rfl⟩

/-- The first piece of a text stands in front of what is behind its first slash. -/
theorem inner_cut (cs : List Char) : inner cs =
    (componentOf? (cs.takeWhile (· != '/'))).toList ++
      inner ((cs.dropWhile (· != '/')).drop 1) := by
  have whole := List.takeWhile_append_dropWhile (p := (· != '/')) (l := cs)
  have stops := List.head?_dropWhile_not (· != '/') cs
  have first : Text.splitAt '/' (cs.takeWhile (· != '/')) = [cs.takeWhile (· != '/')] := by
    refine Text.splitAt_of_not_mem fun member => ?_
    simpa using List.mem_takeWhile_imp member
  cases dropped : cs.dropWhile (· != '/') with
  | nil =>
    rw [dropped, List.append_nil] at whole
    rw [List.drop_nil, show inner [] = [] from rfl, List.append_nil, whole]
    rw [whole] at first
    rw [inner, first, List.filterMap_cons]
    cases componentOf? cs <;> rfl
  | cons c rest =>
    rw [dropped] at whole stops
    obtain rfl : c = '/' := by simpa using stops
    have split := inner_append_slash (cs.takeWhile (· != '/')) rest
    rw [whole] at split
    rw [split, inner, first, List.filterMap_cons]
    cases componentOf? (cs.takeWhile (· != '/')) <;> rfl

/-- What is left of a text starts with a component, unless nothing is. -/
theorem trimLeft_opens (cs : List Char) : trimLeft cs = [] ∨
    ∃ c, componentOf? ((trimLeft cs).takeWhile (· != '/')) = some c := by
  fun_induction trimLeft cs with
  | case1 cs ih => exact ih
  | case2 => exact .inl rfl
  | case3 cs ih => exact ih
  | case4 cs slash dot dotSlash =>
    cases cs with
    | nil => exact .inl rfl
    | cons c cs =>
      have apart : c ≠ '/' := fun same => slash cs (by rw [same])
      rw [List.takeWhile_cons_of_pos (by simpa using apart)]
      refine .inr (componentOf?_some (List.cons_ne_nil _ _) fun single => ?_)
      obtain ⟨rfl, alone⟩ := List.cons.inj single
      -- the dot would be alone in its piece
      cases cs with
      | nil => exact dot rfl
      | cons d cs =>
        by_cases same : d = '/'
        · exact dotSlash cs (by rw [same])
        · rw [List.takeWhile_cons_of_pos (by simpa using same)] at alone
          cases alone

theorem inner_dropComponent (cs : List Char) : inner (dropComponent cs) = (inner cs).tail := by
  have first := inner_cut (trimLeft cs)
  rw [inner_trimLeft] at first
  rw [dropComponent, first]
  rcases trimLeft_opens cs with nothing | ⟨c, found⟩
  · rw [nothing]
    rfl
  · rw [found]
    rfl

theorem inner_dropComponents (n : Nat) (cs : List Char) :
    inner (dropComponents n cs) = (inner cs).drop n := by
  induction n generalizing cs with
  | zero => rfl
  | succ n ih => rw [dropComponents, ih, inner_dropComponent, List.drop_tail]

/-! ### Paths below others -/

theorem below?_eq_none {base : Path} (apart : ¬ base.components <+: q.components) :
    base.below? q = none := by
  rw [below?, if_neg (by rwa [List.isPrefixOf_iff_prefix])]

theorem leading_of_absolute (absolute : q.isAbsolute = true) :
    ∃ cs, q.chars = '/' :: cs ∧ leading q.chars = (['/'], cs) := by
  obtain ⟨cs, chars⟩ := List.head?_eq_some_iff.mp (beq_iff_eq.mp absolute)
  exact ⟨cs, chars, by rw [chars]; rfl⟩

/-- Below an absolute path lies a relative one, with the components that are left. -/
theorem below?_of_absolute {base : Path} (absolute : base.isAbsolute = true)
    (above : base.components <+: q.components) :
    ∃ rest, base.below? q = some rest ∧ rest.isAbsolute = false ∧
      inner q.chars = inner base.chars ++ inner rest.chars := by
  have components := components_of_absolute absolute
  have isAbove := List.isPrefixOf_iff_prefix.mpr above
  obtain ⟨behind, whole⟩ := above
  rw [components, List.cons_append] at whole
  obtain ⟨start, parts⟩ := isAbsolute_of_components whole.symm
  obtain ⟨cs, chars, leads⟩ := leading_of_absolute start
  let left := trimLeft (dropComponents (inner base.chars).length cs)
  have found : base.below? q = some (ofChars (trimRight left)) := by
    rw [below?, if_pos isAbove, components, leads]
  have same : inner (trimRight left) = behind := by
    rw [inner_trimRight, inner_trimLeft, inner_dropComponents, ← inner_slash cs, ← chars, parts,
      List.drop_left]
  refine ⟨ofChars (trimRight left), found, ?_, by rw [chars_ofChars, same, parts]⟩
  rw [isAbsolute, chars_ofChars, beq_eq_false_iff_ne]
  intro slash
  obtain ⟨cut, trimmed⟩ := trimRight_prefix left
  have first : left.head? = some '/' := by
    rw [← trimmed, List.head?_append, slash]
    rfl
  exact head?_trimLeft _ first

/-- Only the empty path is above an absolute one without being absolute, and leaves it whole. -/
theorem below?_of_relative {base : Path} (relative : base.isAbsolute = false)
    (absolute : q.isAbsolute = true) (above : base.components <+: q.components) :
    ∃ rest, base.below? q = some rest ∧ rest.isAbsolute = true ∧
      inner rest.chars = inner q.chars := by
  have nothing : base.components = [] := by
    rw [components_of_absolute absolute] at above
    cases components : base.components with
    | nil => rfl
    | cons first others =>
      rw [components] at above
      obtain ⟨rfl, -⟩ := List.cons_prefix_cons.mp above
      rw [(isAbsolute_of_components components).1] at relative
      cases relative
  obtain ⟨cs, chars, leads⟩ := leading_of_absolute absolute
  have found : base.below? q = some (ofChars ('/' :: trimRight cs)) := by
    rw [below?, if_pos (List.isPrefixOf_iff_prefix.mpr above), nothing, leads]
    rfl
  refine ⟨_, found, ?_, ?_⟩
  · rw [isAbsolute, chars_ofChars]
    rfl
  · rw [chars_ofChars, inner_slash, inner_trimRight, chars, inner_slash]

end ImagePipeline.Path
