import ImagePipeline.Proofs.Template.ActionLines
import ImagePipeline.Proofs.Template.Insertion

/-! The layout of a template. Lines may end with a carriage return too, and an action that opens,
divides or closes a block may be laid out in any way: what is rendered stays the same, and so does
the fault where there is one. -/
namespace ImagePipeline

namespace Text

variable {s : List Char}

theorem lines_fill_carriages (unreturned : '\r' ∉ s) :
    lines (fillChars '\n' ['\r', '\n'] s) = lines s := by
  induction s with
  | nil => rfl
  | cons c cs ih =>
    rw [List.mem_cons, not_or] at unreturned
    obtain ⟨carriage, others⟩ := unreturned
    have behind := ih others
    by_cases feed : c = '\n'
    · subst feed
      exact congrArg ([] :: ·) behind
    · have first : fillChars '\n' ['\r', '\n'] (c :: cs) =
          c :: fillChars '\n' ['\r', '\n'] cs := by
        rw [fillChars, List.flatMap_cons, if_neg feed]
        rfl
      rw [first]
      cases cs with
      | nil => rfl
      | cons d cs =>
        obtain ⟨e, rest, filled⟩ := List.exists_cons_of_ne_nil fun nothing =>
          List.cons_ne_nil d cs (eq_nil_of_fillChars (List.cons_ne_nil '\r' ['\n']) nothing)
        rw [filled] at behind ⊢
        rw [lines_cons _ feed fun same => absurd same.symm carriage, behind,
          lines_cons _ feed fun same => absurd same.symm carriage]

theorem endsWithLineFeed_fill_carriages (s : List Char) :
    endsWithLineFeed (fillChars '\n' ['\r', '\n'] s) = endsWithLineFeed s := by
  rcases List.eq_nil_or_concat' s with rfl | ⟨front, c, rfl⟩
  · rfl
  · have last : (fillChars '\n' ['\r', '\n'] (front ++ [c])).getLast? = some c := by
      rw [fillChars, List.flatMap_append, List.flatMap_singleton]
      split
      · rename_i feed
        rw [List.getLast?_append_of_ne_nil _ (List.cons_ne_nil _ _), feed]
        rfl
      · exact List.getLast?_concat
    rw [endsWithLineFeed, endsWithLineFeed, last, List.getLast?_concat]

end Text

namespace Template

/-- The line opens, divides or closes a block, whatever its number. -/
def marksBlock (line : List Char) : Bool :=
  match kindOf 0 line with
  | .ok .text | .error _ => false
  | .ok _ => true

theorem marksBlock_iff {line : List Char} (n : Nat) :
    marksBlock line = true ↔ ∃ kind, kind ≠ .text ∧ kindOf n line = .ok kind := by
  have known : marksBlock line = true ↔ ∃ kind, kind ≠ .text ∧ kindOf 0 line = .ok kind := by
    unfold marksBlock
    cases kindOf 0 line with
    | error e => simp
    | ok kind => cases kind with
      | text => simp
      | opening | repeating | otherwise | closing => simp
  rw [known]
  constructor
  · rintro ⟨kind, action, found⟩
    exact ⟨kind, action, kindOf_keeps line kind found⟩
  · rintro ⟨kind, action, found⟩
    exact ⟨kind, action, kindOf_keeps line kind found⟩

/-- A line as it is, or with an action that opens, divides or closes a block laid out in another
way. -/
inductive Relaid : List Char → List Char → Prop where
  | same (line : List Char) : Relaid line line
  | action {ws : List (List Char)} {line other : List Char} : marksBlock line = true →
      ActionLine ws line → ActionLine ws other → Relaid line other

namespace Relaid

variable {line other : List Char}

/-- Lines are the same but for their layout if they lay out the same words. -/
theorem iff_words : Relaid line other ↔ line = other ∨ marksBlock line = true ∧
    Text.Unbroken line ∧ Text.Unbroken other ∧ actionWords? line = actionWords? other := by
  constructor
  · intro relaid
    cases relaid with
    | same => exact .inl rfl
    | action marks here there =>
      obtain ⟨kind, action, found⟩ := (marksBlock_iff 0).mp marks
      obtain ⟨-, single⟩ := (here.kindOf_iff action).mp found
      refine .inr ⟨marks, here.unbroken, there.unbroken, ?_⟩
      rw [here.actionWords?_eq_some_iff.mpr ⟨rfl, single⟩,
        there.actionWords?_eq_some_iff.mpr ⟨rfl, single⟩]
  · rintro (rfl | ⟨marks, unbroken, unbroken', words⟩)
    · exact .same _
    · obtain ⟨kind, action, found⟩ := (marksBlock_iff 0).mp marks
      obtain ⟨ws, here, known⟩ := (kindOf_ok_iff action).mp found
      exact .action marks (actionLine_of_kind unbroken here known action)
        (actionLine_of_kind unbroken' (words ▸ here) known action)

instance : Decidable (Relaid line other) := decidable_of_iff _ iff_words.symm

theorem unbroken (relaid : Relaid line other) (unbroken : Text.Unbroken line) :
    Text.Unbroken other := by
  cases relaid with
  | same => exact unbroken
  | action _ _ laid => exact laid.unbroken

theorem eq_nil_iff (relaid : Relaid line other) : line = [] ↔ other = [] := by
  cases relaid with
  | same => rfl
  | action _ here there => exact iff_of_false here.inhabited there.inhabited

/-- A line adds the same as one that is laid out in another way. -/
theorem add (relaid : Relaid line other) (n : Nat) (o : Outline) :
    kindOf n line >>= o.add n line = kindOf n other >>= o.add n other := by
  cases relaid with
  | same => rfl
  | action marks here there =>
    obtain ⟨kind, action, read⟩ := (marksBlock_iff n).mp marks
    have read' : kindOf n other = .ok kind :=
      (there.kindOf_iff action).mpr ((here.kindOf_iff action).mp read)
    rw [read, read']
    cases kind with
    | text => contradiction
    | opening | repeating | otherwise | closing => rfl

theorem unbroken_all {ls others : List (List Char)} (relaid : List.Forall₂ Relaid ls others)
    (unbroken : ∀ line ∈ ls, Text.Unbroken line) : ∀ line ∈ others, Text.Unbroken line := by
  induction relaid with
  | nil => exact unbroken
  | cons first rest ih =>
    obtain ⟨whole, behind⟩ := List.forall_mem_cons.mp unbroken
    exact List.forall_mem_cons.mpr ⟨first.unbroken whole, ih behind⟩

end Relaid

theorem Outline.addLines_relaid {ls others : List (List Char)}
    (relaid : List.Forall₂ Relaid ls others) (n : Nat) (o : Outline) :
    addLines n o ls = addLines n o others := by
  induction relaid generalizing n o with
  | nil => rfl
  | @cons line other ls others first rest ih =>
    have step : ∀ (line : List Char) (lines : List (List Char)), addLines n o (line :: lines) =
        (kindOf n line >>= o.add n line) >>= fun o => addLines (n + 1) o lines := by
      intro line lines
      rw [addLines, bind_assoc]
    rw [step, step, first.add, funext fun o => ih (n + 1) o]

/-- Two texts of lines that are the same but for their layout. -/
structure Alike (s t : List Char) : Prop where
  lines : List.Forall₂ Relaid (Text.lines s) (Text.lines t)
  ends : Text.endsWithLineFeed s = Text.endsWithLineFeed t
  empty : s = [] ↔ t = []

namespace Alike

variable {s t line other : List Char}

theorem render {template other : String} (alike : Alike template.toList other.toList)
    (c : Context) : render other c = render template c := by
  have parsed : parse other.toList = parse template.toList := by
    rw [parse_eq, parse_eq, Outline.addLines_relaid alike.lines]
  have chars : renderChars other.toList c = renderChars template.toList c := by
    simp only [renderChars, parsed, assemble, alike.ends]
  rw [Template.render, Template.render, chars]

theorem of_carriages (unreturned : '\r' ∉ s) :
    Alike s (Text.fillChars '\n' ['\r', '\n'] s) := by
  constructor
  · rw [Text.lines_fill_carriages unreturned]
    exact List.forall₂_same.mpr fun line _ => .same line
  · exact (Text.endsWithLineFeed_fill_carriages s).symm
  · constructor
    · rintro rfl
      rfl
    · exact Text.eq_nil_of_fillChars (List.cons_ne_nil _ _)

theorem of_line (relaid : Relaid line other) (unbroken : Text.Unbroken line) :
    Alike line other := by
  have unbroken' := relaid.unbroken unbroken
  refine ⟨?_, unbroken.unended.trans unbroken'.unended.symm, relaid.eq_nil_iff⟩
  by_cases nothing : line = []
  · rw [nothing, relaid.eq_nil_iff.mp nothing]
    exact .nil
  · rw [Text.lines_last unbroken nothing,
      Text.lines_last unbroken' fun same => nothing (relaid.eq_nil_iff.mpr same)]
    exact .cons relaid .nil

theorem cons (relaid : Relaid line other) (unbroken : Text.Unbroken line) (behind : Alike s t) :
    Alike (line ++ '\n' :: s) (other ++ '\n' :: t) := by
  refine ⟨?_, ?_, iff_of_false (by simp) (by simp)⟩
  · rw [Text.lines_feed unbroken, Text.lines_feed (relaid.unbroken unbroken)]
    exact .cons relaid behind.lines
  · have empty : s.isEmpty = t.isEmpty := by
      rw [Bool.eq_iff_iff, List.isEmpty_iff, List.isEmpty_iff]
      exact behind.empty
    rw [Text.endsWithLineFeed_feed, Text.endsWithLineFeed_feed, behind.ends, empty]

theorem of_unlines {ls others : List (List Char)} (relaid : List.Forall₂ Relaid ls others)
    (unbroken : ∀ line ∈ ls, Text.Unbroken line) :
    Alike (Text.unlines ls) (Text.unlines others) := by
  induction relaid with
  | nil => exact ⟨.nil, rfl, Iff.rfl⟩
  | @cons line other ls others first rest ih =>
    obtain ⟨whole, behind⟩ := List.forall_mem_cons.mp unbroken
    cases rest with
    | nil =>
      have single : ∀ line, Text.unlines [line] = line := fun line => by simp [Text.unlines]
      rw [single, single]
      exact .of_line first whole
    | cons =>
      rw [Text.unlines_cons _ (List.cons_ne_nil _ _), Text.unlines_cons _ (List.cons_ne_nil _ _)]
      exact .cons first whole (ih behind)

end Alike

/-- The layout of a template does not matter. In one without carriage returns a carriage return
may be put in front of every line feed, and every line with an action that opens, divides or
closes a block, all of which are laid out as actions, may be laid out in another way: what is
rendered stays the same, and so does the fault where there is one. -/
theorem layout_immaterial (template : String) (c : Context)
    (unreturned : '\r' ∉ template.toList) :
    render (Text.fill '\n' "\r\n" template) c = render template c ∧
      (∀ line ∈ Text.splitAt '\n' template.toList, marksBlock line = true →
        ∃ ws, ActionLine ws line) ∧
      ∀ other : String, List.Forall₂ Relaid (Text.splitAt '\n' template.toList)
          (Text.splitAt '\n' other.toList) →
        render other c = render template c ∧
          render (Text.fill '\n' "\r\n" other) c = render template c := by
  have unbroken : ∀ line ∈ Text.splitAt '\n' template.toList, Text.Unbroken line := by
    intro line member
    refine ⟨Text.not_mem_of_mem_splitAt member, fun inside => unreturned ?_⟩
    rw [← Text.intercalate_splitAt '\n' template.toList]
    exact (Text.infix_unlines member).subset inside
  have carriages : ∀ {text : String}, '\r' ∉ text.toList →
      render (Text.fill '\n' "\r\n" text) c = render text c := by
    intro text unreturned
    apply Alike.render
    rw [Text.fill, String.toList_ofList]
    exact .of_carriages unreturned
  refine ⟨carriages unreturned, ?_, ?_⟩
  · intro line member marks
    obtain ⟨kind, action, found⟩ := (marksBlock_iff 0).mp marks
    obtain ⟨ws, words, known⟩ := (kindOf_ok_iff action).mp found
    exact ⟨ws, actionLine_of_kind (unbroken line member) words known action⟩
  · intro other relaid
    have alike := Alike.of_unlines relaid unbroken
    have pieces : ∀ s, Text.unlines (Text.splitAt '\n' s) = s := Text.intercalate_splitAt '\n'
    rw [pieces, pieces] at alike
    have unreturned' : '\r' ∉ other.toList := by
      intro inside
      rw [← pieces other.toList] at inside
      rcases Text.mem_unlines inside with feed | ⟨line, member, found⟩
      · contradiction
      · exact (Relaid.unbroken_all relaid unbroken line member).2 found
    exact ⟨alike.render c, (carriages unreturned').trans (alike.render c)⟩

/-- A choice between two commands and a loop, as they may be written. -/
def choiceLines : List (List Char) :=
  ["\x7b\x7b if eq .Base \"debian-12\" \"ubuntu-22.04\" \x7d\x7d".toList,
    "RUN apt-get update".toList,
    "\x7b\x7b else \x7d\x7d".toList,
    "\x7b\x7b range .AdditionalPackages \x7d\x7d".toList,
    "RUN apk add \x7b\x7b . \x7d\x7d".toList,
    "\x7b\x7b end \x7d\x7d".toList,
    "\x7b\x7b end \x7d\x7d".toList]

/-- The same with blanks, with marks that trim and without blanks at the marks. -/
def choiceLinesRelaid : List (List Char) :=
  ["\t\x7b\x7b-if\teq  .Base \"debian-12\"\t\"ubuntu-22.04\"-\x7d\x7d ".toList,
    "RUN apt-get update".toList,
    "  \x7b\x7b- else -\x7d\x7d".toList,
    "\x7b\x7brange  .AdditionalPackages\x7d\x7d".toList,
    "RUN apk add \x7b\x7b . \x7d\x7d".toList,
    "\x7b\x7b end-\x7d\x7d".toList,
    "\x7b\x7b -\tend \x7d\x7d\t".toList]

def choiceText : String := String.ofList (Text.unlines choiceLines)

def choiceTextRelaid : String := String.ofList (Text.unlines choiceLinesRelaid)

theorem choiceText_relaid :
    '\r' ∉ choiceText.toList ∧
      List.Forall₂ Relaid (Text.splitAt '\n' choiceText.toList)
        (Text.splitAt '\n' choiceTextRelaid.toList) ∧
      render (Text.fill '\n' "\r\n" choiceTextRelaid)
        ((Context.ofBase .alpine320).withPackages ["git"]) = .ok "RUN apk add git" := by
  have unreturned : '\r' ∉ choiceText.toList := by
    rw [choiceText, String.toList_ofList]
    decide +kernel
  have relaid : List.Forall₂ Relaid (Text.splitAt '\n' choiceText.toList)
      (Text.splitAt '\n' choiceTextRelaid.toList) := by
    rw [choiceText, choiceTextRelaid, String.toList_ofList, String.toList_ofList]
    decide +kernel
  refine ⟨unreturned, relaid, ?_⟩
  rw [((layout_immaterial choiceText _ unreturned).2.2 choiceTextRelaid relaid).2, render,
    choiceText, String.toList_ofList]
  decide +kernel

end Template

end ImagePipeline
