import ImagePipeline.Files.Basic
import ImagePipeline.Proofs.Text.Pieces

/-! The steps of a path: those of a path below another one are behind that one's, and the directory
that a path lies in has the first of them. -/
namespace ImagePipeline

namespace Path

@[simp] theorem chars_ofChars (cs : List Char) : (ofChars cs).chars = cs := String.toList_ofList

@[simp] theorem ofChars_chars (p : Path) : ofChars p.chars = p := by
  rw [chars, ofChars, String.ofList_toList]

/-- Two paths that are joined meet at one slash, unless the first one is empty. -/
theorem join_chars {p q : Path} (below : q.isAbsolute = false) :
    (p.chars = [] ∧ (p.join q).chars = q.chars) ∨
    (∃ front, p.chars = front ++ ['/'] ∧ (p.join q).chars = front ++ '/' :: q.chars) ∨
    (p.join q).chars = p.chars ++ '/' :: q.chars := by
  rw [join, if_neg (by simp [below])]
  split
  · rename_i closed
    have chars : (⟨p.text ++ q.text⟩ : Path).chars = p.chars ++ q.chars := String.toList_append
    rw [chars]
    rcases Bool.or_eq_true_iff.mp closed with empty | slash
    · have nothing : p.chars = [] := by simpa [isEmpty, Path.chars] using empty
      exact .inl ⟨nothing, by rw [nothing, List.nil_append]⟩
    · obtain ⟨front, ends⟩ := List.getLast?_eq_some_iff.mp (beq_iff_eq.mp slash)
      exact .inr (.inl ⟨front, ends, by rw [ends, List.append_assoc, List.singleton_append]⟩)
  · exact .inr (.inr (by simp [Path.chars]))

/-- What is cut off behind begins with a slash, unless nothing is left. -/
theorem trimReversed_cut (cs : List Char) : trimReversed cs = [] ∨ trimReversed cs = cs ∨
    ∃ cut, cs = cut ++ '/' :: trimReversed cs := by
  fun_induction trimReversed cs with
  | case1 cs ih =>
    rcases ih with nothing | same | ⟨cut, split⟩
    · exact .inl nothing
    · exact .inr (.inr ⟨[], by rw [same, List.nil_append]⟩)
    · exact .inr (.inr ⟨'/' :: cut, by rw [List.cons_append, ← split]⟩)
  | case2 => exact .inl rfl
  | case3 cs ih =>
    rcases ih with nothing | same | ⟨cut, split⟩
    · exact .inl nothing
    · exact .inr (.inr ⟨['.'], by rw [same, List.singleton_append]⟩)
    · exact .inr (.inr ⟨'.' :: '/' :: cut, by rw [List.cons_append, List.cons_append, ← split]⟩)
  | case4 => exact .inr (.inl rfl)

theorem trimRight_cut (cs : List Char) : trimRight cs = [] ∨ trimRight cs = cs ∨
    ∃ cut, cs = trimRight cs ++ '/' :: cut := by
  unfold trimRight
  rcases trimReversed_cut cs.reverse with nothing | same | ⟨cut, split⟩
  · exact .inl (by rw [nothing, List.reverse_nil])
  · exact .inr (.inl (by rw [same, List.reverse_reverse]))
  · refine .inr (.inr ⟨cut.reverse, ?_⟩)
    have whole := congrArg List.reverse split
    simpa using whole

theorem leading_append (cs : List Char) : (leading cs).1 ++ (leading cs).2 = cs := by
  unfold leading
  split <;> rfl

theorem trimRight_concat_slash (cs : List Char) : trimRight (cs ++ ['/']) = trimRight cs := by
  unfold trimRight
  rw [List.reverse_append, List.reverse_singleton, List.singleton_append, trimReversed]

/-- A text is what is in front of its last slash, that slash, and what is behind it. -/
theorem lastSlash_cut (cs : List Char) :
    (cs.reverse.dropWhile (· != '/')).reverse = [] ∨
      ∃ front behind, (cs.reverse.dropWhile (· != '/')).reverse = front ++ ['/'] ∧
        cs = front ++ '/' :: behind := by
  have whole := List.takeWhile_append_dropWhile (p := (· != '/')) (l := cs.reverse)
  cases dropped : cs.reverse.dropWhile (· != '/') with
  | nil => exact .inl rfl
  | cons c rest =>
    have stops := List.head?_dropWhile_not (· != '/') cs.reverse
    rw [dropped] at stops whole
    obtain rfl : c = '/' := by simpa using stops
    have text := congrArg List.reverse whole
    rw [List.reverse_append, List.reverse_cons, List.reverse_reverse, List.append_assoc,
      List.singleton_append] at text
    exact .inr ⟨rest.reverse, _, List.reverse_cons, text.symm⟩

end Path

namespace FileTree

open ImagePipeline.Path (ofChars)

theorem stepsOf_append (before after : List Char) :
    stepsOf (ofChars (before ++ '/' :: after)) =
      stepsOf (ofChars before) ++ stepsOf (ofChars after) := by
  simp only [stepsOf, Path.chars_ofChars, Text.splitAt_append, List.filter_append, List.map_append]

theorem stepsOf_prefix (before after : List Char) :
    stepsOf (ofChars before) <+: stepsOf (ofChars (before ++ '/' :: after)) := by
  rw [stepsOf_append]
  exact List.prefix_append _ _

theorem stepsOf_eq {p : Path} {cs : List Char} (chars : p.chars = cs) :
    stepsOf p = stepsOf (ofChars cs) := by
  rw [← chars, Path.ofChars_chars]

theorem stepsOf_join {p q : Path} (below : q.isAbsolute = false) :
    stepsOf (p.join q) = stepsOf p ++ stepsOf q := by
  have last : stepsOf (ofChars []) = [] := rfl
  rcases Path.join_chars (p := p) below with ⟨empty, joined⟩ | ⟨front, ends, joined⟩ | joined
  · rw [stepsOf_eq empty, stepsOf_eq joined, Path.ofChars_chars, last, List.nil_append]
  · rw [stepsOf_eq joined, stepsOf_eq ends, stepsOf_append, stepsOf_append, last, List.append_nil,
      Path.ofChars_chars]
  · rw [stepsOf_eq joined, stepsOf_append, Path.ofChars_chars, Path.ofChars_chars]

/-- The leading part of a path is no step. -/
theorem stepsOf_leading (cs : List Char) : stepsOf (ofChars (Path.leading cs).1) = [] := by
  unfold Path.leading
  split <;> simp only [stepsOf, Path.chars_ofChars] <;> rfl

theorem stepsOf_trimRight {front : List Char} (first : stepsOf (ofChars front) = [])
    (cs : List Char) :
    stepsOf (ofChars (front ++ Path.trimRight cs)) <+: stepsOf (ofChars (front ++ cs)) := by
  rcases Path.trimRight_cut cs with nothing | same | ⟨cut, split⟩
  · rw [nothing, List.append_nil, first]
    exact List.nil_prefix
  · exact ⟨[], by rw [same, List.append_nil]⟩
  · have longer := stepsOf_prefix (front ++ Path.trimRight cs) cut
    rwa [List.append_assoc, ← split] at longer

/-- The directory that a path lies in is on its way. -/
theorem stepsOf_parent {p parent : Path} (found : p.parent? = some parent) :
    stepsOf parent <+: stepsOf p := by
  unfold Path.parent? at found
  split at found
  · cases found
  · cases found
  · cases found
    exact List.nil_prefix
  · have whole := Path.leading_append p.chars
    have first := stepsOf_leading p.chars
    rcases leads : Path.leading p.chars with ⟨front, body⟩
    rw [leads] at whole first
    simp only [leads, Option.some.injEq] at found
    subst found
    rw [stepsOf_eq whole.symm]
    refine List.IsPrefix.trans ?_ (stepsOf_trimRight first body)
    rcases Path.lastSlash_cut (Path.trimRight body) with nothing | ⟨kept, behind, kept_eq, text⟩
    · have empty : stepsOf (ofChars (front ++ Path.trimRight [])) = [] := by
        rw [show Path.trimRight [] = [] from rfl, List.append_nil, first]
      rw [nothing, empty]
      exact List.nil_prefix
    · rw [kept_eq, Path.trimRight_concat_slash]
      have longer := stepsOf_prefix (front ++ kept) behind
      rw [List.append_assoc, ← text] at longer
      exact (stepsOf_trimRight first kept).trans longer

/-- No step of a path whose components do not lead upwards does. -/
theorem stepsOf_stays {p : Path} (stays : Component.parent ∉ p.components) : ".." ∉ stepsOf p := by
  intro member
  obtain ⟨piece, given, upwards⟩ := List.mem_map.mp member
  obtain ⟨among, -⟩ := List.mem_filter.mp given
  have dots : piece = ['.', '.'] := by rw [← String.toList_ofList (l := piece), upwards]; rfl
  have inner : Component.parent ∈ (Text.splitAt '/' p.chars).filterMap Path.componentOf? :=
    List.mem_filterMap.mpr ⟨piece, among, by rw [dots]; rfl⟩
  refine stays ?_
  unfold Path.components
  dsimp only
  split
  · exact List.mem_cons_of_mem _ inner
  · split
    · exact List.mem_cons_of_mem _ inner
    · exact inner

end FileTree

end ImagePipeline
