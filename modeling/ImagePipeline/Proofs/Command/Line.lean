import Mathlib.Data.List.Forall2
import ImagePipeline.Command.Basic
import ImagePipeline.Shell.Token

/-! A command's line is read back. The shell splits it into words that stand for the program and
its arguments, with nothing in them that it could take for anything but text. -/
namespace ImagePipeline

variable {fuel line : Nat} {acc : List Shell.Segment} {rest : List Char} {c : Char}

namespace Shell

/-- The characters that can stand for something else than themselves outside of quotes: they end
words, quote, expand, or match names of files. An equals sign is none of them, as it only tells an
assignment, which is one word too. -/
def marks : List Char :=
  ['|', '&', ';', '<', '>', '(', ')', '$', '\x60', '\\', '"', '\'', ' ', '\t', '\n', '*', '?',
    '[', ']', '#', '~', '%', '!', '^', '\x7b', '\x7d']

/-- A part of a word that stands for itself. -/
def Segment.Verbatim : Segment → Prop
  | .literal quoted text => quoted = true ∨ ∀ c ∈ text.toList, c ∉ marks
  | .value _ _ => False

/-- A word that is a text and nothing else, whatever the parameters stand for. -/
structure Word.Spells (w : Word) (text : String) : Prop where
  verbatim : ∀ segment ∈ w, segment.Verbatim
  fields : ∀ scope : Scope, scope.fields w = [text]

/-- A line of nothing but words, which stand for these texts. -/
def Splits (text : String) (texts : List String) : Prop :=
  ∃ ws : List (Nat × Word), tokens? text = some (ws.map fun x => .word x.1 x.2) ∧
    List.Forall₂ (fun x text => x.2.Spells text) ws texts

/-- A line is split in one way. -/
theorem Splits.unique {text : String} {texts others : List String} (splits : Splits text texts)
    (again : Splits text others) : texts = others := by
  obtain ⟨ws, read, spelled⟩ := splits
  obtain ⟨vs, reread, respelled⟩ := again
  have same : ws = vs := by
    have tokens := Option.some.inj (read.symm.trans reread)
    refine List.map_injective_iff.mpr ?_ tokens
    rintro ⟨line, w⟩ ⟨line', w'⟩ equal
    cases equal
    rfl
  subst same
  clear read reread
  induction spelled generalizing others with
  | nil => cases respelled; rfl
  | cons spells _ ih =>
    cases respelled with
    | cons respells respelled =>
      have first := (spells.fields {}).symm.trans (respells.fields {})
      rw [List.cons.inj first |>.1, ih respelled]

/-! ### Words of literal parts -/

/-- A word that is written in these parts. -/
def Word.ofParts (quoted : Bool) (parts : List String) : Word := parts.map (.literal quoted)

theorem foldl_addSegment (scope : Scope) (quoted : Bool) (parts : List String) (f : Fields)
    (begun : String) :
    (Word.ofParts quoted parts).foldl (Fields.addSegment scope) { f with current := some begun } =
      { f with current := some (begun ++ String.join parts) } := by
  induction parts generalizing begun with
  | nil => simp [Word.ofParts]
  | cons part parts ih =>
    have step := ih (begun ++ part)
    simp only [Word.ofParts, List.map_cons, List.foldl_cons, Fields.addSegment, Fields.add,
      Option.getD_some, String.join_cons, ← String.append_assoc] at step ⊢
    exact step

theorem fields_ofParts (scope : Scope) (quoted : Bool) {parts : List String} (given : parts ≠ []) :
    scope.fields (Word.ofParts quoted parts) = [String.join parts] := by
  cases parts with
  | nil => contradiction
  | cons part parts =>
    have rest := foldl_addSegment scope quoted parts {} part
    simp only [Scope.fields, Word.ofParts, List.map_cons, List.foldl_cons, Fields.addSegment,
      Fields.add, Option.getD_none, String.empty_append, String.join_cons] at rest ⊢
    rw [rest]
    rfl

theorem spells_ofParts {quoted : Bool} {parts : List String} (given : parts ≠ [])
    (safe : quoted = true ∨ ∀ part ∈ parts, ∀ c ∈ part.toList, c ∉ marks) :
    (Word.ofParts quoted parts).Spells (String.join parts) where
  verbatim := by
    intro segment member
    obtain ⟨part, listed, rfl⟩ := List.mem_map.mp member
    exact safe.imp_right fun bare => bare part listed
  fields scope := fields_ofParts scope quoted given

theorem tidy_ofParts (quoted : Bool) (parts : List String) :
    tidy (Word.ofParts quoted parts) = Word.ofParts quoted parts := by
  induction parts with
  | nil => rfl
  | cons part parts ih =>
    cases parts with
    | nil => cases quoted <;> simp [Word.ofParts, tidy]
    | cons next parts =>
      simp only [Word.ofParts, List.map_cons] at ih ⊢
      rw [tidy, ih]
      simp

/-! ### Reading one word -/

/-- What stands behind a word in a line. -/
def Ends (rest : List Char) : Prop := rest = [] ∨ ∃ more, rest = ' ' :: more

theorem readWord_end (ended : Ends rest) :
    readWord (fuel + 1) acc rest = some (acc, rest) := by
  rcases ended with rfl | ⟨more, rfl⟩ <;> rfl

theorem ne_of_bare (bare : c ∉ marks) : ∀ mark ∈ marks, c ≠ mark := by
  rintro _ mark rfl
  exact bare mark

theorem endsWord_of_bare (bare : c ∉ marks) : endsWord c = false := by
  have marked : ∀ other, endsWord other = true → other ∈ marks := by
    intro other ends
    refine List.Subset.trans ?_ (List.Subset.refl marks) (List.contains_iff_mem.mp ends)
    decide
  exact Bool.eq_false_iff.mpr fun ends => bare (marked c ends)

theorem readWord_bare (bare : c ∉ marks) :
    readWord (fuel + 1) acc (c :: rest) = readWord fuel (addChar false c acc) rest := by
  have apart := ne_of_bare bare
  have tick : (c == '\x60') = false := beq_false_of_ne (apart _ (by decide))
  rw [readWord, endsWord_of_bare bare, tick]
  · rfl
  all_goals intros
  · exact apart '\'' (by decide) ‹_›
  · exact apart '"' (by decide) ‹_›
  · exact apart '\\' (by decide) ‹_›
  · exact apart '\\' (by decide) ‹_›
  · exact apart '$' (by decide) ‹_›

theorem readWord_quote {inside : List Char} (unquoted : '\'' ∉ inside) :
    readWord (fuel + 1) acc ('\'' :: (inside ++ '\'' :: rest)) =
      readWord fuel (.literal true (String.ofList inside) :: acc) rest := by
  have front : (inside ++ '\'' :: rest).takeWhile (· != '\'') = inside := by
    rw [List.takeWhile_append_of_pos]
    · simp
    · intro c member
      simpa using fun same : c = '\'' => unquoted (same ▸ member)
  rw [readWord, front]
  simp

/-- Bare characters are added to the part that has been begun. -/
theorem readWord_allBare {cs : List Char} {begun : String} (bare : ∀ c ∈ cs, c ∉ marks)
    (ended : Ends rest) (room : cs.length < fuel) :
    readWord fuel [.literal false begun] (cs ++ rest) =
      some ([.literal false (begun ++ String.ofList cs)], rest) := by
  induction cs generalizing fuel begun with
  | nil =>
    cases fuel with
    | zero => exact absurd room (Nat.not_lt_zero _)
    | succ fuel => simpa using readWord_end ended
  | cons c cs ih =>
    rw [List.forall_mem_cons] at bare
    cases fuel with
    | zero => exact absurd room (Nat.not_lt_zero _)
    | succ fuel =>
      have longer : begun.push c ++ String.ofList cs = begun ++ String.ofList (c :: cs) := by
        simp [← String.toList_inj]
      rw [List.cons_append, readWord_bare bare.1, ← longer]
      exact ih bare.2 (Nat.lt_of_succ_lt_succ room)

end Shell

/-! ### Quoting -/

namespace Command

theorem quotedChars_append (front back : List Char) :
    quotedChars (front ++ back) = quotedChars front ++ quotedChars back := by
  induction front with
  | nil => rfl
  | cons c front ih => rw [List.cons_append, quotedChars, quotedChars, ih, List.append_assoc]

theorem quotedChars_of_unquoted {text : List Char} (unquoted : '\'' ∉ text) :
    quotedChars text = text := by
  induction text with
  | nil => rfl
  | cons c text ih =>
    rw [List.mem_cons, not_or] at unquoted
    have other : (c == '\'') = false := beq_false_of_ne (Ne.symm unquoted.1)
    rw [quotedChars, other, ih unquoted.2]
    rfl

theorem bare_of_plain (plain : isPlainChar c = true) : c ∉ Shell.marks := by
  have special : Shell.marks.all (!isPlainChar ·) = true := by decide
  intro marked
  have other := List.all_eq_true.mp special c marked
  rw [plain] at other
  contradiction

/-- A word is left without quotes only if it has a character, and all of them are bare. -/
theorem quoteChars_cases (text : List Char) :
    (∃ c cs, text = c :: cs ∧ c ∉ Shell.marks ∧ (∀ c ∈ cs, c ∉ Shell.marks) ∧
      quoteChars text = text) ∨
    quoteChars text = '\'' :: (quotedChars text ++ ['\'']) := by
  unfold quoteChars
  split
  · rename_i plain
    cases text with
    | nil => contradiction
    | cons c cs =>
      have plain : ∀ x ∈ c :: cs, isPlainChar x = true := by simpa using plain
      have bare : ∀ x ∈ c :: cs, x ∉ Shell.marks := fun x member => bare_of_plain (plain x member)
      rw [List.forall_mem_cons] at bare
      exact .inl ⟨c, cs, rfl, bare.1, bare.2, rfl⟩
  · exact .inr rfl

theorem quoteChars_ne_nil (text : List Char) : quoteChars text ≠ [] := by
  rcases quoteChars_cases text with ⟨c, cs, rfl, -, -, same⟩ | quotes
  · simp [same]
  · simp [quotes]

end Command

/-! ### Reading what is quoted -/

namespace Shell

/-- A quoted text is read piece by piece, cut at the quotes in it. Each of these is put behind the
piece in front of it. -/
theorem readWord_quoted (text : List Char) (acc : List Segment) {fuel : Nat} (ended : Ends rest)
    (room : (Command.quotedChars text).length + 2 < fuel) :
    ∃ parts, parts ≠ [] ∧ String.join parts = String.ofList text ∧
      readWord fuel acc ('\'' :: (Command.quotedChars text ++ '\'' :: rest)) =
        some ((Word.ofParts true parts).reverse ++ acc, rest) := by
  by_cases quote : '\'' ∈ text
  · obtain ⟨front, back, rfl, unquoted⟩ := List.eq_append_cons_of_mem quote
    have written : Command.quotedChars (front ++ '\'' :: back) =
        front ++ '\'' :: '\\' :: '\'' :: '\'' :: Command.quotedChars back := by
      rw [Command.quotedChars_append, Command.quotedChars_of_unquoted unquoted]
      rfl
    rw [written] at room ⊢
    simp only [List.length_append, List.length_cons] at room
    obtain ⟨fuel, rfl⟩ : ∃ n, fuel = n + 2 := ⟨fuel - 2, by omega⟩
    have left : (Command.quotedChars back).length + 2 < fuel := by omega
    obtain ⟨parts, -, spelled, read⟩ := readWord_quoted back
      (.literal true (String.ofList (front ++ ['\''])) :: acc) ended left
    refine ⟨String.ofList (front ++ ['\'']) :: parts, List.cons_ne_nil _ _, ?_, ?_⟩
    · rw [String.join_cons, spelled]
      simp [← String.toList_inj]
    · have piece : (String.ofList front).push '\'' = String.ofList (front ++ ['\'']) := by
        simp [← String.toList_inj]
      rw [List.append_assoc, List.cons_append, readWord_quote unquoted]
      simp only [List.cons_append]
      rw [readWord, addChar, if_pos (by rfl), piece, read]
      · simp [Word.ofParts]
      · simp
  · rw [Command.quotedChars_of_unquoted quote] at room ⊢
    obtain ⟨fuel, rfl⟩ : ∃ n, fuel = n + 2 := ⟨fuel - 2, by omega⟩
    refine ⟨[String.ofList text], List.cons_ne_nil _ _, by simp, ?_⟩
    rw [readWord_quote quote, readWord_end ended]
    rfl
termination_by text.length

/-- A quoted word is read as what was quoted. -/
theorem readWord_quoteChars (text : String) (ended : Ends rest)
    (room : (Command.quoteChars text.toList).length < fuel) :
    ∃ quoted parts, readWord fuel [] (Command.quoteChars text.toList ++ rest) =
        some ((Word.ofParts quoted parts).reverse, rest) ∧
      (Word.ofParts quoted parts).Spells text := by
  rcases Command.quoteChars_cases text.toList with ⟨c, cs, chars, first, bare, same⟩ | quotes
  · rw [same, chars] at room ⊢
    cases fuel with
    | zero => exact absurd room (Nat.not_lt_zero _)
    | succ fuel =>
      have whole : String.singleton c ++ String.ofList cs = text := by
        simp [← String.toList_inj, chars]
      refine ⟨false, [text], ?_, ?_⟩
      · rw [List.cons_append, readWord_bare first, addChar, readWord_allBare bare ended, whole]
        · rfl
        · exact Nat.lt_of_succ_lt_succ room
        · nofun
      · have single : String.join [text] = text := by simp
        rw [← single]
        refine spells_ofParts (List.cons_ne_nil _ _) (.inr ?_)
        simpa [chars] using ⟨first, bare⟩
  · rw [quotes] at room ⊢
    rw [List.length_cons, List.length_append, List.length_singleton] at room
    obtain ⟨parts, given, spelled, read⟩ := readWord_quoted text.toList [] ended room
    refine ⟨true, parts, by simpa using read, ?_⟩
    have joined : String.join parts = text := spelled.trans String.ofList_toList
    exact joined ▸ spells_ofParts given (.inl rfl)

/-! ### Reading a line -/

/-- No redirection stands here. -/
theorem redirect?_eq_none {d : Option Nat} {s : List Char} (less : s.head? ≠ some '<')
    (greater : s.head? ≠ some '>') : redirect? d s = none := by
  unfold redirect?
  split <;> simp_all

/-- Bare characters do not turn into the descriptor of a redirection. -/
theorem redirect?_of_bare {d : Option Nat} {cs : List Char} (bare : ∀ c ∈ cs, c ∉ marks)
    (ended : Ends rest) : redirect? d ((cs ++ rest).dropWhile Char.isDigit) = none := by
  induction cs with
  | nil => rcases ended with rfl | ⟨more, rfl⟩ <;> exact redirect?_eq_none nofun nofun
  | cons c cs ih =>
    rw [List.forall_mem_cons] at bare
    rw [List.cons_append, List.dropWhile_cons]
    split
    · exact ih bare.2
    · have apart := ne_of_bare bare.1
      refine redirect?_eq_none ?_ ?_
      · simpa using apart '<' (by decide)
      · simpa using apart '>' (by decide)

theorem drop_length_takeWhile (p : Char → Bool) (s : List Char) :
    s.drop (s.takeWhile p).length = s.dropWhile p := by
  induction s with
  | nil => rfl
  | cons c s ih => by_cases holds : p c <;> simp [holds, ih]

/-- A word starts with a bare character or a quote. -/
theorem tokensFrom_word {c : Char} {segments : List Segment} {behind : List Char}
    (starts : c ∉ marks ∨ c = '\'')
    (undirected : ∀ d, redirect? d ((c :: rest).dropWhile Char.isDigit) = none)
    (read : readWord ((c :: rest).length + 1) [] (c :: rest) = some (segments, behind)) :
    ∃ lines, ∀ fuel line, tokensFrom (fuel + 1) line (c :: rest) =
      (tokensFrom fuel (line + lines) behind).map (.word line (tidy segments.reverse) :: ·) := by
  have apart : ∀ mark ∈ marks, mark ≠ '\'' → c ≠ mark := by
    rintro _ marked other rfl
    exact starts.elim (· marked) other
  have inside : endsWord c = false := starts.elim endsWord_of_bare fun quote => quote ▸ rfl
  refine ⟨((c :: rest).take ((c :: rest).length - behind.length)).count '\n', fun fuel line => ?_⟩
  rw [tokensFrom]
  · rw [drop_length_takeWhile, undirected, inside, read]
    simp only [Bool.false_eq_true, if_false, Option.bind_eq_bind, Option.bind_some,
      Option.map_eq_bind]
    rfl
  all_goals intros
  · exact apart ' ' (by decide) (by decide) ‹_›
  · exact apart '\t' (by decide) (by decide) ‹_›
  · exact apart '\\' (by decide) (by decide) ‹_›
  · exact apart '\n' (by decide) (by decide) ‹_›
  · exact apart ';' (by decide) (by decide) ‹_›
  · exact apart '&' (by decide) (by decide) ‹_›
  · exact apart '|' (by decide) (by decide) ‹_›
  · exact apart '(' (by decide) (by decide) ‹_›
  · exact apart ')' (by decide) (by decide) ‹_›
  · exact apart '#' (by decide) (by decide) ‹_›

theorem tokensFrom_quoteChars (text : String) (ended : Ends rest) :
    ∃ w : Word, w.Spells text ∧ ∃ lines, ∀ fuel line,
      tokensFrom (fuel + 1) line (Command.quoteChars text.toList ++ rest) =
        (tokensFrom fuel (line + lines) rest).map (.word line w :: ·) := by
  have room : (Command.quoteChars text.toList).length <
      (Command.quoteChars text.toList ++ rest).length + 1 := by
    rw [List.length_append]
    omega
  obtain ⟨quoted, parts, read, spells⟩ := readWord_quoteChars text ended room
  refine ⟨Word.ofParts quoted parts, spells, ?_⟩
  have tidied : tidy (Word.ofParts quoted parts).reverse.reverse = Word.ofParts quoted parts := by
    rw [List.reverse_reverse, tidy_ofParts]
  rw [← tidied]
  rcases Command.quoteChars_cases text.toList with ⟨c, cs, chars, first, bare, same⟩ | quotes
  · rw [same, chars] at read ⊢
    refine tokensFrom_word (.inl first) (fun d => ?_) read
    exact redirect?_of_bare (List.forall_mem_cons.mpr ⟨first, bare⟩) ended
  · rw [quotes] at read ⊢
    exact tokensFrom_word (.inr rfl) (fun d => redirect?_eq_none nofun nofun) read

/-- Quoted texts with a space between any two. -/
def quotedLine (texts : List String) : List Char :=
  List.intercalate [' '] (texts.map fun text => Command.quoteChars text.toList)

theorem quotedLine_single (text : String) :
    quotedLine [text] = Command.quoteChars text.toList ++ [] := rfl

theorem quotedLine_cons (text next : String) (texts : List String) :
    quotedLine (text :: next :: texts) =
      Command.quoteChars text.toList ++ ' ' :: quotedLine (next :: texts) := rfl

/-- Each word takes a step, and so does each space. -/
theorem tokensFrom_quotedLine (texts : List String) (line : Nat)
    (room : (quotedLine texts).length < fuel) :
    ∃ ws : List (Nat × Word),
      tokensFrom fuel line (quotedLine texts) = some (ws.map fun x => .word x.1 x.2) ∧
      List.Forall₂ (fun x text => x.2.Spells text) ws texts := by
  induction texts generalizing fuel line with
  | nil =>
    obtain ⟨fuel, rfl⟩ : ∃ n, fuel = n + 1 := ⟨fuel - 1, by omega⟩
    exact ⟨[], rfl, .nil⟩
  | cons text texts ih =>
    have given := List.length_pos_iff.mpr (Command.quoteChars_ne_nil text.toList)
    cases texts with
    | nil =>
      rw [quotedLine_single, List.append_nil] at room
      obtain ⟨fuel, rfl⟩ : ∃ n, fuel = n + 2 := ⟨fuel - 2, by omega⟩
      have ended : Ends [] := .inl rfl
      obtain ⟨w, spells, lines, read⟩ := tokensFrom_quoteChars text ended
      refine ⟨[(line, w)], ?_, .cons spells .nil⟩
      rw [quotedLine_single, read]
      rfl
    | cons next texts =>
      rw [quotedLine_cons, List.length_append, List.length_cons] at room
      obtain ⟨fuel, rfl⟩ : ∃ n, fuel = n + 2 := ⟨fuel - 2, by omega⟩
      have ended : Ends (' ' :: quotedLine (next :: texts)) := .inr ⟨_, rfl⟩
      have left : (quotedLine (next :: texts)).length < fuel := by omega
      obtain ⟨w, spells, lines, read⟩ := tokensFrom_quoteChars text ended
      have space : tokensFrom (fuel + 1) (line + lines) (' ' :: quotedLine (next :: texts)) =
        tokensFrom fuel (line + lines) (quotedLine (next :: texts)) := rfl
      obtain ⟨ws, following, spelled⟩ := ih (line + lines) left
      refine ⟨(line, w) :: ws, ?_, .cons spells spelled⟩
      rw [quotedLine_cons, read, space, following]
      rfl

end Shell

namespace Command

theorem lineChars_eq (c : Command) : c.lineChars = Shell.quotedLine (c.program :: c.args) := by
  rw [lineChars, words, List.map_cons, List.map_map]
  rfl

theorem line_splits (c : Command) : Shell.Splits c.line (c.program :: c.args) := by
  have room : (Shell.quotedLine (c.program :: c.args)).length < c.line.length + 1 := by
    rw [← lineChars_eq, line, String.length_ofList]
    exact Nat.lt_succ_self _
  obtain ⟨ws, read, spelled⟩ := Shell.tokensFrom_quotedLine (c.program :: c.args) 1 room
  refine ⟨ws, ?_, spelled⟩
  rw [Shell.tokens?, ← read, ← lineChars_eq, line, String.toList_ofList]

example : ({ program := "echo", args := ["it's", ""] } : Command).line =
    "echo 'it'\\''s' ''" := by
  decide +kernel

/-- A shell splits the line of a command into the program and the arguments, and into nothing
else: every character of them is quoted, or is one that nothing is made of. So no other program or
arguments have the same line. -/
theorem line_splits_iff (c : Command) :
    (∀ texts, Shell.Splits c.line texts ↔ texts = c.program :: c.args) ∧
      ∀ d : Command, d.line = c.line ↔ d.program = c.program ∧ d.args = c.args := by
  have splits : ∀ texts, Shell.Splits c.line texts ↔ texts = c.program :: c.args := by
    intro texts
    constructor
    · exact fun splits => splits.unique c.line_splits
    · rintro rfl
      exact c.line_splits
  refine ⟨splits, fun d => ⟨fun same => ?_, ?_⟩⟩
  · have words := (splits _).mp (same ▸ d.line_splits)
    exact List.cons.inj words
  · rintro ⟨program, args⟩
    rw [line, line, lineChars_eq, lineChars_eq, program, args]

end Command

end ImagePipeline
