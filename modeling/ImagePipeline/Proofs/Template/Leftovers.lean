import ImagePipeline.Proofs.Template.Insertion
import ImagePipeline.Proofs.Template.Marks
import ImagePipeline.Proofs.Text.Doubled

/-! What is left of a template. Where no value and no package has an opening brace, no two of them
stand beside each other in what is rendered: the text between actions ends in front of the first
two, so that none is left to meet one from behind an action, and values bring none. -/
namespace ImagePipeline

theorem Text.Single.unlines {x : Char} {ls : List (List Char)} (feed : x ≠ '\n')
    (single : ∀ line ∈ ls, Text.Single x line) : Text.Single x (Text.unlines ls) := by
  induction ls with
  | nil => exact Text.single_of_not_mem List.not_mem_nil
  | cons line ls ih =>
    obtain ⟨first, others⟩ := List.forall_mem_cons.mp single
    cases ls with
    | nil => simpa [Text.unlines] using first
    | cons next ls =>
      rw [Text.unlines_cons _ (List.cons_ne_nil _ _), ← List.singleton_append]
      have behind : Text.Single x (['\n'] ++ Text.unlines (next :: ls)) := by
        refine (Text.single_of_not_mem (by simpa using feed)).append (ih others) ?_
        intro last
        exact absurd (Option.some.inj last).symm feed
      refine first.append behind fun _ start => feed (Option.some.inj start).symm

namespace Template

variable {c : Context} {item : Option String} {n : Nat}

/-- The text that has been read of a line, in reverse, holds no mark and does not end inside of
one. -/
structure Clear (started line : List Char) : Prop where
  single : Text.Single '{' started.reverse
  apart : started.head? = some '{' → line.head? ≠ some '{'

theorem Clear.start (line : List Char) : Clear [] line := by
  constructor
  · exact Text.single_of_not_mem List.not_mem_nil
  · intro first
    contradiction

theorem Clear.pass {started line : List Char} {d : Char} (clear : Clear started (d :: line))
    (unopened : d = '{' → line.head? ≠ some '{') : Clear (d :: started) line := by
  constructor
  · rw [List.reverse_cons]
    refine clear.single.append ?_ ?_
    · exact List.isChain_singleton d
    · rw [List.getLast?_reverse]
      exact clear.apart
  · intro first
    exact unopened (Option.some.inj first)

/-- The text of the pieces of a line. The induction is on the line, with the text between actions
clear of marks as far as it has been read. -/
theorem piecesText_single (values : ∀ name value, c.value? name = some value → '{' ∉ value.toList)
    (inItem : ∀ p ∈ item, '{' ∉ p.toList) {inAction : Bool} {started line text : List Char}
    (clear : inAction = false → Clear started line)
    (found : piecesText c item n (pieces inAction started line) = .ok text) :
    Text.Single '{' text := by
  fun_induction pieces inAction started line generalizing text with
  | case1 started =>
    obtain rfl : started.reverse ++ [] = text := Except.ok.inj found
    rw [List.append_nil]
    exact (clear rfl).single
  | case2 => contradiction
  | case3 started rest ih =>
    obtain ⟨front, here, found⟩ := result_of_bind found
    obtain ⟨more, behind, found⟩ := result_of_bind found
    cases here
    cases found
    refine (clear rfl).single.append (ih ?_ behind) ?_
    · intro outside
      contradiction
    · rw [List.getLast?_reverse]
      intro last
      exact absurd rfl ((clear rfl).apart last)
  | case4 started rest ih =>
    obtain ⟨front, here, found⟩ := result_of_bind found
    obtain ⟨more, behind, found⟩ := result_of_bind found
    cases found
    have absent : '{' ∉ front := actionValue_of (P := fun s => '{' ∉ s) values inItem here
    refine (Text.single_of_not_mem absent).append (ih (fun _ => .start rest) behind) ?_
    intro last
    exact absurd (List.mem_of_getLast? last) absent
  | case5 inAction started d rest closed opened ih =>
    refine ih (fun outside => (clear outside).pass ?_) found
    intro brace next
    obtain ⟨more, cut⟩ := List.head?_eq_some_iff.mp next
    exact closed more outside brace cut

theorem single_tells
    (values : ∀ name value, c.values.lookup name = some value → '{' ∉ value.toList)
    (packages : ∀ p ∈ c.packages, '{' ∉ p.toList) :
    Tells c (fun s => '{' ∉ s) (fun _ => true) (Text.Single '{') := by
  refine ⟨packages, ?_⟩
  intro item n content line inItem _ found
  refine piecesText_single (fun name value given => ?_) inItem (fun _ => .start content) found
  exact Context.value_or_word (P := fun s => '{' ∉ s.toList) values (by decide) given

mutual

theorem Node.every_true : (node : Node) → node.every (fun _ => true) = true
  | .text _ _ => rfl
  | .branch _ _ chosen otherwise => by
    rw [Node.every, nodesEvery_true chosen, nodesEvery_true otherwise]
    rfl
  | .loop body => nodesEvery_true body

theorem nodesEvery_true : (nodes : List Node) → nodesEvery (fun _ => true) nodes = true
  | [] => rfl
  | node :: nodes => by
    rw [nodesEvery, node.every_true, nodesEvery_true nodes]
    rfl

end

/-- No action is left in what is rendered, if no value and no package has an opening brace. -/
theorem rendered_unmarked (template text : String) (c : Context)
    (values : ∀ name value, c.values.lookup name = some value → '{' ∉ value.toList)
    (packages : ∀ p ∈ c.packages, '{' ∉ p.toList) (rendered : render template c = .ok text) :
    ¬openMark <:+: text.toList := by
  obtain ⟨nodes, lines, -, given, rfl⟩ := of_render_ok rendered
  have single := renderNodes_every (single_tells values packages) (by simp) nodes
    (nodesEvery_true nodes) given
  have whole := Text.Single.unlines (by decide) single
  rw [String.toList_ofList]
  apply Text.single_iff_not_within.mp
  unfold assemble
  dsimp only
  split
  · refine whole.append (Text.single_of_not_mem (by decide)) fun _ first => ?_
    contradiction
  · exact whole

def braceLines : List (List Char) :=
  ["a\x7b\x7b .Nothing \x7d\x7d\x7b\x7b .Nothing \x7d\x7d\x7b b \x7d\x7b".toList,
    "\x7b\x7b .Arch \x7d\x7d\x7b".toList,
    "  \x7b \x7b\x7b .Arch \x7d\x7d \x7d\x7d".toList]

/-- Braces beside actions, some of which stand for nothing. -/
def braceText : String := String.ofList (Text.unlines braceLines)

def braceContext : Context :=
  ((Context.ofBase .alpine320).withValue "Nothing" "").withValue "Arch" "arm64"

theorem braceText_unmarked :
    (∀ name value, braceContext.values.lookup name = some value → '{' ∉ value.toList) ∧
      (∀ p ∈ braceContext.packages, '{' ∉ p.toList) ∧
      render braceText braceContext = .ok "a\x7b b \x7d\x7b\narm64\x7b\n  \x7b arm64 \x7d\x7d" ∧
      ¬openMark <:+: "a\x7b b \x7d\x7b\narm64\x7b\n  \x7b arm64 \x7d\x7d".toList := by
  have values : ∀ entry ∈ braceContext.values, '{' ∉ entry.2.toList := by decide +kernel
  have lookups : ∀ name value, braceContext.values.lookup name = some value →
      '{' ∉ value.toList := fun name value given => values _ (mem_of_lookup given)
  have packages : ∀ p ∈ braceContext.packages, '{' ∉ p.toList := by decide +kernel
  have rendered : render braceText braceContext =
      .ok "a\x7b b \x7d\x7b\narm64\x7b\n  \x7b arm64 \x7d\x7d" := by
    rw [render, braceText, String.toList_ofList]
    decide +kernel
  exact ⟨lookups, packages, rendered,
    rendered_unmarked braceText _ braceContext lookups packages rendered⟩

end Template

end ImagePipeline
