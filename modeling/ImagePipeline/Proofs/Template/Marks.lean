import ImagePipeline.Proofs.Template.Texts

/-! Lines that start with a mark. A check of a tree tells that no line which it gives does,
whatever is put in, or that one line does under one flag and no other. -/
namespace ImagePipeline

namespace Text

/-- The marked lines of a text that is put together are those that are put in, if a carriage
return stands in no mark and ends no marked line. -/
theorem lines_filter_startsWith {mark : List Char} {ls : List (List Char)}
    (unreturned : '\r' ∉ mark) (feeds : ∀ line ∈ ls, NoFeed line)
    (ends : ∀ line ∈ ls.filter (startsWith mark), line.getLast? ≠ some '\r') :
    (lines (ls.flatMap fun line => line ++ ['\n'])).filter (startsWith mark) =
      ls.filter (startsWith mark) := by
  rw [lines_flatMap]
  induction ls with
  | nil => rfl
  | cons line ls ih =>
    obtain ⟨feed, others⟩ := List.forall_mem_cons.mp feeds
    have behind := ih others fun line member => ends line <| by
      rw [List.filter_cons]
      split
      · exact List.mem_cons_of_mem _ member
      · exact member
    have same : (lines (line ++ ['\n'])).filter (startsWith mark) =
        [line].filter (startsWith mark) := by
      obtain ⟨first, cut, rfl | carriage⟩ := lines_first_cut feed
      · rw [cut]
      · have both := startsWith_concat unreturned first
        rw [← carriage] at both
        cases marked : startsWith mark line with
        | false => simp [cut, marked, ← both]
        | true =>
          have last := ends line (by simp [marked])
          simp [carriage] at last
    rw [List.flatMap_cons, List.filter_append, same, behind, ← List.filter_append,
      List.singleton_append]

end Text

namespace Template

/-! ### Every line of a tree -/

mutual

/-- A test of every line of a node before anything is put in. -/
def Node.every (test : List Char → Bool) : Node → Bool
  | .text _ content => test content
  | .branch _ _ chosen otherwise => nodesEvery test chosen && nodesEvery test otherwise
  | .loop body => nodesEvery test body

def nodesEvery (test : List Char → Bool) : List Node → Bool
  | [] => true
  | n :: ns => n.every test && nodesEvery test ns

end

section Every

variable {c : Context} {test : List Char → Bool} {P Q : List Char → Prop}

theorem forPackages_every {f : String → Except Fault (List (List Char))} {ps : List String}
    {lines : List (List Char)}
    (each : ∀ p ∈ ps, ∀ lines, f p = .ok lines → ∀ line ∈ lines, Q line)
    (found : forPackages f ps = .ok lines) : ∀ line ∈ lines, Q line := by
  induction ps generalizing lines with
  | nil =>
    cases found
    simp
  | cons p ps ih =>
    obtain ⟨here, others⟩ := List.forall_mem_cons.mp each
    obtain ⟨front, first, found⟩ := result_of_bind found
    obtain ⟨rest, behind, found⟩ := result_of_bind found
    cases found
    exact List.forall_mem_append.mpr ⟨here front first, ih others behind⟩

/-- A test of lines tells something of what they give, if something else is known of the
packages. -/
structure Tells (c : Context) (P : List Char → Prop) (test : List Char → Bool)
    (Q : List Char → Prop) : Prop where
  packages : ∀ p ∈ c.packages, P p.toList
  line : ∀ item n content line, (∀ p ∈ item, P (String.toList p)) → test content = true →
    substitute c item n content = .ok line → Q line

mutual

theorem Node.render_every (tells : Tells c P test Q) {item : Option String}
    (inItem : ∀ p ∈ item, P p.toList) : (node : Node) → {lines : List (List Char)} →
      node.every test = true → node.render c item = .ok lines → ∀ line ∈ lines, Q line
  | .text n content, lines, tested, rendered => by
    obtain ⟨line, found, rendered⟩ := result_of_bind rendered
    cases rendered
    simpa using tells.line item n content line inItem tested found
  | .branch n guard chosen otherwise, lines, tested, rendered => by
    obtain ⟨first, second⟩ := Bool.and_eq_true_iff.mp tested
    rw [Node.render] at rendered
    split at rendered
    · cases rendered
    · exact renderNodes_every tells inItem chosen first rendered
    · exact renderNodes_every tells inItem otherwise second rendered
  | .loop body, lines, tested, rendered =>
    forPackages_every (fun p member _ found =>
      renderNodes_every tells (by simpa using tells.packages p member) body tested found) rendered

/-- What the test tells of single lines holds of every line that is given. -/
theorem renderNodes_every (tells : Tells c P test Q) {item : Option String}
    (inItem : ∀ p ∈ item, P p.toList) : (nodes : List Node) → {lines : List (List Char)} →
      nodesEvery test nodes = true → renderNodes c item nodes = .ok lines → ∀ line ∈ lines, Q line
  | [], lines, tested, rendered => by
    cases rendered
    simp
  | node :: nodes, lines, tested, rendered => by
    obtain ⟨first, others⟩ := Bool.and_eq_true_iff.mp tested
    obtain ⟨front, rest, here, behind, rfl⟩ := renderNodes_cons_ok.mp rendered
    exact List.forall_mem_append.mpr ⟨Node.render_every tells inItem node first here,
      renderNodes_every tells inItem nodes others behind⟩

end

end Every

/-! ### Lines without a line feed -/

/-- The literal text of a line has no line feed. -/
def unfed (content : List Char) : Bool :=
  (pieces false [] content).all fun
    | .literal s => !s.contains '\n'
    | .action _ | .unclosed => true

section Lines

variable {c : Context}

/-- Nothing that is put in ends a line. -/
theorem unfed_tells (texts : c.Texts Text.NoFeed) :
    Tells c Text.NoFeed unfed Text.NoFeed := by
  refine ⟨texts.packages, fun item n content line inItem tested found => ?_⟩
  unfold unfed at tested
  unfold substitute at found
  generalize pieces false [] content = ps at tested found
  induction ps generalizing line with
  | nil =>
    cases found
    exact List.not_mem_nil
  | cons p ps ih =>
    obtain ⟨first, others⟩ := Bool.and_eq_true_iff.mp tested
    obtain ⟨front, here, found⟩ := result_of_bind found
    obtain ⟨rest, behind, found⟩ := result_of_bind found
    cases found
    refine fun member => (List.mem_append.mp member).elim ?_ (ih rest others behind)
    cases p with
    | literal s =>
      cases here
      simpa using first
    | action inner =>
      exact actionValue_of (fun _ _ known => texts.value Text.noFeed_harmless known) inItem here
    | unclosed => cases here

end Lines

/-! ### Marked lines -/

/-- No line that the content gives starts with the mark. -/
def avoids (mark content : List Char) : Bool :=
  match pieces false [] content with
  | [.literal s] => !Text.startsWith mark s
  | .literal s :: _ => Text.clashes mark s
  | _ => false

/-- The content gives the mark and the value of a variable. -/
def assigns (mark name content : List Char) : Bool :=
  match pieces false [] content with
  | [.literal s, .action inner, .literal []] =>
    s == mark && actionText inner != ['.'] && fieldName? (actionText inner) == some name
  | _ => false

/-- There is one marked line, the first of a block that is guarded by a flag, and it assigns the
value of a variable. -/
def assignsOnce (mark flag name : List Char) (nodes : List Node) : Bool :=
  match nodes.filter fun node => !node.every (avoids mark) with
  | [.branch _ (.flag guard false) (.text _ content :: rest) otherwise] =>
    guard.toList == flag && assigns mark name content && nodesEvery (avoids mark) rest &&
      nodesEvery (avoids mark) otherwise
  | _ => false

section Marked

variable {c : Context} {mark flag : List Char}

theorem avoids_tells : Tells c (fun _ => True) (avoids mark)
    (fun line => Text.startsWith mark line = false) := by
  refine ⟨fun _ _ => trivial, fun item n content line _ tested found => ?_⟩
  unfold avoids at tested
  unfold substitute at found
  split at tested
  · rename_i s one
    rw [one] at found
    obtain rfl : s ++ [] = line := Except.ok.inj found
    simpa using tested
  · rename_i s _ _ more
    rw [more] at found
    obtain ⟨front, here, found⟩ := result_of_bind found
    obtain ⟨rest, behind, found⟩ := result_of_bind found
    cases here
    cases found
    exact Text.startsWith_of_clash tested rest
  · cases tested

theorem filter_of_avoids {item : Option String} {nodes : List Node} {lines : List (List Char)}
    (avoided : nodesEvery (avoids mark) nodes = true)
    (rendered : renderNodes c item nodes = .ok lines) :
    lines.filter (Text.startsWith mark) = [] := by
  have unmarked := renderNodes_every avoids_tells (by simp) nodes avoided rendered
  exact List.filter_eq_nil_iff.mpr fun line member => by simp [unmarked line member]

theorem substitute_of_assigns {name content : List Char} {value : String}
    (assigned : assigns mark name content = true)
    (known : c.value? (String.ofList name) = some value) (item : Option String) (n : Nat) :
    substitute c item n content = .ok (mark ++ value.toList) := by
  unfold assigns at assigned
  split at assigned
  · rename_i s inner content
    simp only [Bool.and_eq_true, beq_iff_eq, bne_iff_ne] at assigned
    obtain ⟨⟨rfl, other⟩, field⟩ := assigned
    have put : actionValue c item n inner = .ok value.toList := by
      have dot : (actionText inner == ['.']) = false := by simpa using other
      simp only [actionValue, dot, field, known, Bool.false_eq_true, if_false]
    simp only [substitute, content, piecesText, pieceText, put, bind, Except.bind, pure,
      Except.pure, List.append_nil]
  · cases assigned

/-- Nodes without a marked line do not count for the marked lines. -/
theorem filter_nodes (mark : List Char) {nodes : List Node} {lines : List (List Char)}
    (rendered : renderNodes c none nodes = .ok lines) :
    ∃ those, renderNodes c none (nodes.filter fun node => !node.every (avoids mark)) = .ok those ∧
      lines.filter (Text.startsWith mark) = those.filter (Text.startsWith mark) := by
  induction nodes generalizing lines with
  | nil => exact ⟨lines, rendered, rfl⟩
  | cons node nodes ih =>
    obtain ⟨front, rest, here, behind, rfl⟩ := renderNodes_cons_ok.mp rendered
    obtain ⟨those, found, same⟩ := ih behind
    rw [List.filter_append, same]
    cases avoided : node.every (avoids mark) with
    | true =>
      have single : renderNodes c none [node] = .ok front := by
        refine renderNodes_cons_ok.mpr ⟨front, [], here, rfl, by simp⟩
      have nothing : front.filter (Text.startsWith mark) = [] :=
        filter_of_avoids (by simp [nodesEvery, avoided]) single
      exact ⟨those, by simpa [List.filter_cons, avoided] using found, by simp [nothing]⟩
    | false =>
      refine ⟨front ++ those, ?_, by rw [List.filter_append]⟩
      simpa [List.filter_cons, avoided] using renderNodes_cons_ok.mpr ⟨_, _, here, found, rfl⟩

/-- A variable that is assigned once gives one marked line if its flag is set, and else none. -/
theorem marked_of_assignsOnce {name : List Char} {nodes : List Node} {lines : List (List Char)}
    {on : Bool} {value : String} (checked : assignsOnce mark flag name nodes = true)
    (flagged : c.flag? (String.ofList flag) = some on)
    (known : c.value? (String.ofList name) = some value)
    (rendered : renderNodes c none nodes = .ok lines) :
    lines.filter (Text.startsWith mark) = if on then [mark ++ value.toList] else [] := by
  obtain ⟨those, found, same⟩ := filter_nodes mark rendered
  rw [same]
  unfold assignsOnce at checked
  split at checked
  · rename_i n guard m content rest otherwise only
    rw [only] at found
    simp only [Bool.and_eq_true, beq_iff_eq] at checked
    obtain ⟨⟨⟨rfl, assigned⟩, inside⟩, beside⟩ := checked
    rw [String.ofList_toList] at flagged
    obtain ⟨front, rest', here, nothing, rfl⟩ := renderNodes_cons_ok.mp found
    cases nothing
    rw [List.append_nil]
    have decided : holds c n (.flag guard false) = .ok on := by
      simp only [holds, flagged, Bool.bne_false]
    rw [Node.render, decided] at here
    cases on with
    | false => exact filter_of_avoids beside here
    | true =>
      obtain ⟨first, others, line, behind, rfl⟩ := renderNodes_cons_ok.mp here
      rw [Node.render, substitute_of_assigns assigned known] at line
      cases line
      rw [List.filter_append, filter_of_avoids inside behind]
      simp [Text.startsWith_append]
  · cases checked

end Marked

end Template

end ImagePipeline
