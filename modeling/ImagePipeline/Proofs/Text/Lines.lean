import ImagePipeline.Text.Lines
import Mathlib.Data.List.Flatten

/-! Lines of texts that are put together of lines. A line without line breaks of its own
stays one line, whatever the others hold. -/
namespace ImagePipeline.Text

/-- A line without a character that could end it. -/
def Unbroken (line : List Char) : Prop := '\n' ∉ line ∧ '\r' ∉ line

instance (line : List Char) : Decidable (Unbroken line) :=
  inferInstanceAs (Decidable (_ ∧ _))

theorem Unbroken.of_subset {s t : List Char} (unbroken : Unbroken t) (sub : s ⊆ t) : Unbroken s :=
  ⟨fun member => unbroken.1 (sub member), fun member => unbroken.2 (sub member)⟩

theorem Unbroken.append {s t : List Char} (front : Unbroken s) (back : Unbroken t) :
    Unbroken (s ++ t) :=
  ⟨fun member => (List.mem_append.mp member).elim front.1 back.1,
    fun member => (List.mem_append.mp member).elim front.2 back.2⟩

theorem lines_ne_nil {s : List Char} (inhabited : s ≠ []) : lines s ≠ [] := by
  fun_cases lines s with
  | case1 => exact absurd rfl inhabited
  | case2 | case3 | case4 => exact List.cons_ne_nil _ _
  | case5 c cs =>
    unfold consHead
    split <;> exact List.cons_ne_nil _ _

theorem consHead_append (c : Char) {front back : List (List Char)} (inhabited : front ≠ []) :
    consHead c (front ++ back) = consHead c front ++ back := by
  cases front with
  | nil => exact absurd rfl inhabited
  | cons => rfl

/-- A character that starts no line break belongs to the first line. -/
theorem lines_cons {c d : Char} (cs : List Char) (feed : c ≠ '\n')
    (carriage : c = '\r' → d ≠ '\n') : lines (c :: d :: cs) = consHead c (lines (d :: cs)) := by
  rw [lines] <;> simp_all

/-- A line feed ends a line, whatever stands behind it. -/
theorem lines_append (a b : List Char) :
    lines (a ++ '\n' :: b) = lines (a ++ ['\n']) ++ lines b := by
  fun_induction lines a with
  | case1 => rfl
  | case2 cs ih => exact congrArg ([] :: ·) ih
  | case3 cs ih => exact congrArg ([] :: ·) ih
  | case4 c feed =>
    by_cases carriage : c = '\r'
    · subst carriage
      rfl
    · simp [lines, consHead, carriage]
  | case5 c cs feed carriage inhabited ih =>
    cases cs with
    | nil => exact absurd rfl inhabited
    | cons d cs =>
      have apart : c = '\r' → d ≠ '\n' := fun same other => carriage cs same (by rw [other])
      simp only [List.cons_append] at ih ⊢
      rw [lines_cons _ feed apart, lines_cons _ feed apart, ih]
      exact consHead_append c (lines_ne_nil (List.cons_ne_nil _ _))

theorem lines_unbroken {line : List Char} (unbroken : Unbroken line) :
    lines (line ++ ['\n']) = [line] := by
  induction line with
  | nil => rfl
  | cons c cs ih =>
    obtain ⟨feeds, carriages⟩ := unbroken
    have feed : c ≠ '\n' := fun same => feeds (same ▸ List.mem_cons_self)
    have carriage : c ≠ '\r' := fun same => carriages (same ▸ List.mem_cons_self)
    have inside := ih ⟨fun member => feeds (List.mem_cons_of_mem _ member),
      fun member => carriages (List.mem_cons_of_mem _ member)⟩
    cases cs with
    | nil => rw [List.singleton_append, lines_cons [] feed fun same => absurd same carriage]; rfl
    | cons d cs =>
      simp only [List.cons_append] at inside ⊢
      rw [lines_cons _ feed fun same => absurd same carriage, inside]
      rfl

theorem lines_feed {line : List Char} (unbroken : Unbroken line) (rest : List Char) :
    lines (line ++ '\n' :: rest) = line :: lines rest := by
  rw [lines_append, lines_unbroken unbroken]
  rfl

theorem unlines_concat {ls : List (List Char)} (inhabited : ls ≠ []) :
    unlines ls ++ ['\n'] = ls.flatMap fun line => line ++ ['\n'] := by
  induction ls with
  | nil => exact absurd rfl inhabited
  | cons line rest ih =>
    cases rest with
    | nil => simp [unlines]
    | cons next rest =>
      have behind := ih (List.cons_ne_nil _ _)
      rw [unlines, List.intercalate_cons_cons, List.append_assoc, ← unlines, behind]
      rfl

theorem lines_flatMap (ls : List (List Char)) :
    lines (ls.flatMap fun line => line ++ ['\n']) =
      ls.flatMap fun line => lines (line ++ ['\n']) := by
  induction ls with
  | nil => rfl
  | cons line rest ih =>
    rw [List.flatMap_cons, List.append_assoc, List.singleton_append, lines_append, ih,
      List.flatMap_cons]

theorem flatMap_unbroken {ls : List (List Char)} (unbroken : ∀ line ∈ ls, Unbroken line) :
    (ls.flatMap fun line => lines (line ++ ['\n'])) = ls := by
  induction ls with
  | nil => rfl
  | cons line rest ih =>
    obtain ⟨first, others⟩ := List.forall_mem_cons.mp unbroken
    rw [List.flatMap_cons, lines_unbroken first, ih others]
    rfl

/-- Unbroken lines of a text that is put together are lines of it, in the same order. -/
theorem sublist_lines {kept ls : List (List Char)} (sublist : kept.Sublist ls)
    (inhabited : ls ≠ []) (unbroken : ∀ line ∈ kept, Unbroken line) :
    kept.Sublist (lines (unlines ls ++ ['\n'])) := by
  have inside := sublist.flatMap fun line => lines (line ++ ['\n'])
  rwa [flatMap_unbroken unbroken, ← lines_flatMap, ← unlines_concat inhabited] at inside

theorem toList_ofLines (ls : List String) :
    (ofLines ls).toList = (ls.map String.toList).flatMap fun line => line ++ ['\n'] := by
  rw [ofLines]
  induction ls with
  | nil => rfl
  | cons line rest ih => simp [ih]

theorem lines_ofLines {ls : List String} (unbroken : ∀ line ∈ ls.map String.toList, Unbroken line) :
    lines (ofLines ls).toList = ls.map String.toList := by
  rw [toList_ofLines, lines_flatMap, flatMap_unbroken unbroken]

theorem endsWithLineFeed_ofLines {ls : List String} (inhabited : ls ≠ []) :
    endsWithLineFeed (ofLines ls).toList = true := by
  have some : ls.map String.toList ≠ [] := fun none => inhabited (List.map_eq_nil_iff.mp none)
  simp [endsWithLineFeed, toList_ofLines, ← unlines_concat some]

theorem unlines_ne_nil {line : List Char} {ls : List (List Char)} (member : line ∈ ls)
    (inhabited : line ≠ []) : unlines ls ≠ [] := by
  intro nothing
  have whole := unlines_concat (List.ne_nil_of_mem member)
  have inside := List.sublist_flatten_of_mem
    (List.mem_map_of_mem (f := fun line => line ++ ['\n']) member)
  rw [← List.flatMap_def, ← whole, nothing] at inside
  exact inhabited (by simpa using inside.length_le)

/-- A text that does not break off inside of a line. -/
def Whole (s : List Char) : Prop := s = [] ∨ endsWithLineFeed s = true

theorem endsWithLineFeed_iff {s : List Char} :
    endsWithLineFeed s = true ↔ ∃ front, s = front ++ ['\n'] := by
  rw [endsWithLineFeed, beq_iff_eq, List.getLast?_eq_some_iff]

theorem Whole.append {a b : List Char} (front : Whole a) (back : Whole b) : Whole (a ++ b) := by
  rcases back with rfl | ends
  · rwa [List.append_nil]
  · obtain ⟨rest, rfl⟩ := endsWithLineFeed_iff.mp ends
    exact .inr (endsWithLineFeed_iff.mpr ⟨a ++ rest, by rw [List.append_assoc]⟩)

theorem Whole.behind {a b : List Char} (whole : Whole (a ++ b)) : Whole b := by
  by_cases nothing : b = []
  · exact .inl nothing
  · rcases whole with empty | ends
    · exact absurd (List.append_eq_nil_iff.mp empty).2 nothing
    · rw [endsWithLineFeed, List.getLast?_append, List.getLast?_eq_some_getLast nothing] at ends
      rw [Whole, endsWithLineFeed, List.getLast?_eq_some_getLast nothing]
      exact .inr ends

/-- Whole lines stay the same lines, whatever stands behind them. -/
theorem lines_whole_append {a : List Char} (front : Whole a) (b : List Char) :
    lines (a ++ b) = lines a ++ lines b := by
  rcases front with rfl | ends
  · rfl
  · obtain ⟨rest, rfl⟩ := endsWithLineFeed_iff.mp ends
    rw [List.append_assoc, List.singleton_append, lines_append]

/-- What stands in front of the first line feed is one line, without a carriage return at its
end. -/
theorem lines_first_cut {front : List Char} (feeds : '\n' ∉ front) :
    ∃ line, lines (front ++ ['\n']) = [line] ∧ (front = line ∨ front = line ++ ['\r']) := by
  induction front with
  | nil => exact ⟨[], rfl, .inl rfl⟩
  | cons c cs ih =>
    rw [List.mem_cons, not_or] at feeds
    obtain ⟨line, inside, cut⟩ := ih feeds.2
    cases cs with
    | nil =>
      by_cases carriage : c = '\r'
      · subst carriage
        exact ⟨[], rfl, .inr rfl⟩
      · refine ⟨[c], ?_, .inl rfl⟩
        rw [List.singleton_append, lines_cons [] (Ne.symm feeds.1) fun same => absurd same carriage]
        rfl
    | cons d cs =>
      have apart : d ≠ '\n' := fun same => feeds.2 (same ▸ List.mem_cons_self)
      refine ⟨c :: line, ?_, ?_⟩
      · simp only [List.cons_append] at inside ⊢
        rw [lines_cons _ (Ne.symm feeds.1) fun _ => apart, inside]
        rfl
      · rcases cut with same | cut
        · exact .inl (congrArg (c :: ·) same)
        · exact .inr (congrArg (c :: ·) cut)

theorem lines_first {front : List Char} (feeds : '\n' ∉ front) :
    ∃ line, lines (front ++ ['\n']) = [line] :=
  (lines_first_cut feeds).imp fun _ first => first.1

theorem mem_consHead {c : Char} {ls : List (List Char)} {line : List Char}
    (member : line ∈ consHead c ls) : (∃ tail, line = c :: tail ∧ (tail = [] ∨ tail ∈ ls)) ∨
      line ∈ ls := by
  cases ls with
  | nil => exact .inl ⟨[], List.mem_singleton.mp member, .inl rfl⟩
  | cons first rest =>
    rcases List.mem_cons.mp member with rfl | behind
    · exact .inl ⟨first, rfl, .inr List.mem_cons_self⟩
    · exact .inr (List.mem_cons_of_mem _ behind)

/-- Lines hold no other characters than their text. -/
theorem lines_subset (s : List Char) : ∀ line ∈ lines s, line ⊆ s := by
  intro line member
  fun_induction lines s generalizing line with
  | case1 => cases member
  | case2 cs ih =>
    rcases List.mem_cons.mp member with rfl | behind
    · exact List.nil_subset _
    · exact List.Subset.trans (ih line behind) (List.subset_cons_self _ _)
  | case3 cs ih =>
    rcases List.mem_cons.mp member with rfl | behind
    · exact List.nil_subset _
    · exact List.subset_cons_of_subset _ (List.subset_cons_of_subset _ (ih line behind))
  | case4 c => exact List.mem_singleton.mp member ▸ List.Subset.refl _
  | case5 c cs _ _ _ ih =>
    rcases mem_consHead member with ⟨tail, rfl, nothing | inside⟩ | behind
    · rw [nothing]
      exact List.cons_subset_cons c (List.nil_subset _)
    · exact List.cons_subset_cons c (ih tail inside)
    · exact List.subset_cons_of_subset _ (ih line behind)

theorem feed_not_mem_lines {s line : List Char} (member : line ∈ lines s) : '\n' ∉ line := by
  fun_induction lines s generalizing line with
  | case1 => cases member
  | case2 cs ih | case3 cs ih =>
    rcases List.mem_cons.mp member with rfl | behind
    · exact List.not_mem_nil
    · exact ih behind
  | case4 c feed =>
    rw [List.mem_singleton.mp member, List.mem_singleton]
    exact fun same => feed same.symm
  | case5 c cs feed _ _ ih =>
    rcases mem_consHead member with ⟨tail, rfl, nothing | inside⟩ | behind
    · rw [nothing, List.mem_singleton]
      exact fun same => feed same.symm
    · rw [List.mem_cons, not_or]
      exact ⟨fun same => feed same.symm, ih inside⟩
    · exact ih behind

/-- A line that a carriage return and a line feed end is kept, even if it has more carriage
returns in front of these. -/
theorem lines_carriage {line : List Char} (feeds : '\n' ∉ line) (rest : List Char) :
    lines (line ++ '\r' :: '\n' :: rest) = line :: lines rest := by
  induction line with
  | nil => rfl
  | cons c cs ih =>
    rw [List.mem_cons, not_or] at feeds
    have inside := ih feeds.2
    cases cs with
    | nil =>
      rw [List.singleton_append, lines_cons _ (Ne.symm feeds.1) fun _ => by decide]
      rfl
    | cons d cs =>
      have apart : d ≠ '\n' := fun same => feeds.2 (same ▸ List.mem_cons_self)
      simp only [List.cons_append] at inside ⊢
      rw [lines_cons _ (Ne.symm feeds.1) fun _ => apart, inside]
      rfl

/-- Lines without line feeds are the lines of a text. -/
theorem lines_carriages {ls : List (List Char)} (feeds : ∀ line ∈ ls, '\n' ∉ line) :
    lines (ls.flatMap fun line => line ++ ['\r', '\n']) = ls := by
  induction ls with
  | nil => rfl
  | cons line rest ih =>
    obtain ⟨first, others⟩ := List.forall_mem_cons.mp feeds
    rw [List.flatMap_cons, List.append_assoc]
    exact (lines_carriage first _).trans (congrArg _ (ih others))

theorem unlines_cons (line : List Char) {ls : List (List Char)} (inhabited : ls ≠ []) :
    unlines (line :: ls) = line ++ '\n' :: unlines ls := by
  obtain ⟨next, rest, rfl⟩ := List.exists_cons_of_ne_nil inhabited
  rw [unlines, List.intercalate_cons_cons, List.append_assoc]
  rfl

theorem unlines_consHead (c : Char) (ls : List (List Char)) :
    unlines (consHead c ls) = c :: unlines ls := by
  cases ls with
  | nil => rfl
  | cons line rest =>
    cases rest with
    | nil => simp [unlines, consHead]
    | cons next rest =>
      rw [consHead, unlines_cons _ (List.cons_ne_nil _ _), unlines_cons _ (List.cons_ne_nil _ _)]
      rfl

theorem endsWithLineFeed_cons (c : Char) {s : List Char} (inhabited : s ≠ []) :
    endsWithLineFeed (c :: s) = endsWithLineFeed s := by
  obtain ⟨d, cs, rfl⟩ := List.exists_cons_of_ne_nil inhabited
  rw [endsWithLineFeed, endsWithLineFeed, List.getLast?_cons_cons]

theorem endsWithLineFeed_feed (line rest : List Char) :
    endsWithLineFeed (line ++ '\n' :: rest) = (rest.isEmpty || endsWithLineFeed rest) := by
  cases rest with
  | nil => simp [endsWithLineFeed]
  | cons c cs =>
    rw [endsWithLineFeed, endsWithLineFeed, List.getLast?_append, List.getLast?_cons_cons,
      List.getLast?_cons]
    rfl

/-- A text without carriage returns is put together again from its lines, but for a line feed at
its end. -/
theorem unlines_lines {s : List Char} (unreturned : '\r' ∉ s) :
    unlines (lines s) ++ (if endsWithLineFeed s then ['\n'] else []) = s := by
  fun_induction lines s with
  | case1 => rfl
  | case2 cs ih =>
    have behind := ih fun member => unreturned (List.mem_cons_of_mem _ member)
    cases cs with
    | nil => rfl
    | cons d cs =>
      rw [unlines_cons [] (lines_ne_nil (List.cons_ne_nil _ _)),
        endsWithLineFeed_cons _ (List.cons_ne_nil _ _)]
      exact congrArg ('\n' :: ·) behind
  | case3 cs ih => exact absurd List.mem_cons_self unreturned
  | case4 c feed =>
    have other : (c == '\n') = false := beq_eq_false_iff_ne.mpr feed
    simp [unlines, endsWithLineFeed, other]
  | case5 c cs feed _ inhabited ih =>
    have behind := ih fun member => unreturned (List.mem_cons_of_mem _ member)
    rw [unlines_consHead, endsWithLineFeed_cons _ inhabited]
    exact congrArg (c :: ·) behind

theorem Unbroken.unended {line : List Char} (unbroken : Unbroken line) :
    endsWithLineFeed line = false := by
  refine beq_eq_false_iff_ne.mpr fun last => ?_
  exact unbroken.1 (List.mem_of_getLast? last)

/-- A line at the end of a text needs no line feed. -/
theorem lines_last {line : List Char} (unbroken : Unbroken line) (inhabited : line ≠ []) :
    lines line = [line] := by
  obtain ⟨first, rest, cut⟩ := List.exists_cons_of_ne_nil (lines_ne_nil inhabited)
  have whole := unlines_lines unbroken.2
  rw [unbroken.unended, if_neg Bool.false_ne_true, List.append_nil, cut] at whole
  cases rest with
  | nil =>
    rw [cut, ← whole]
    simp [unlines]
  | cons next rest =>
    rw [unlines_cons _ (List.cons_ne_nil _ _)] at whole
    exact absurd (by simp [← whole]) unbroken.1

theorem mem_unlines {ls : List (List Char)} {c : Char} (member : c ∈ unlines ls) :
    c = '\n' ∨ ∃ line ∈ ls, c ∈ line := by
  induction ls with
  | nil => contradiction
  | cons line ls ih =>
    cases ls with
    | nil => exact .inr ⟨line, List.mem_cons_self, by simpa [unlines] using member⟩
    | cons next ls =>
      rw [unlines_cons _ (List.cons_ne_nil _ _)] at member
      rcases List.mem_append.mp member with first | behind
      · exact .inr ⟨line, List.mem_cons_self, first⟩
      · rcases List.mem_cons.mp behind with feed | behind
        · exact .inl feed
        · rcases ih behind with feed | ⟨other, inside, found⟩
          · exact .inl feed
          · exact .inr ⟨other, List.mem_cons_of_mem _ inside, found⟩

theorem infix_unlines {line : List Char} {ls : List (List Char)} (member : line ∈ ls) :
    line <:+: unlines ls := by
  obtain ⟨front, back, rfl⟩ := List.append_of_mem member
  induction front with
  | nil =>
    cases back with
    | nil => simp [unlines]
    | cons next back =>
      rw [List.nil_append, unlines_cons _ (List.cons_ne_nil _ _)]
      exact (List.prefix_append _ _).isInfix
  | cons first front ih =>
    rw [List.cons_append, unlines_cons _ (by simp)]
    exact (ih (by simp)).trans ((List.suffix_cons _ _).trans (List.suffix_append _ _)).isInfix

theorem infix_of_mem_lines {s line : List Char} (unreturned : '\r' ∉ s)
    (member : line ∈ lines s) : line <:+: s := by
  rw [← unlines_lines unreturned]
  exact (infix_unlines member).trans (List.prefix_append _ _).isInfix

end ImagePipeline.Text
