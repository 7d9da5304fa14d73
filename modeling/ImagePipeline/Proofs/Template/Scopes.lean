import ImagePipeline.Proofs.Dockerfile.Arguments
import ImagePipeline.Proofs.Template.Concatenation
import ImagePipeline.Proofs.Template.Skeleton

/-! Build arguments in a template. Its tree is checked once, without a context: every branch and
the body of every loop is walked with the arguments that are in scope in any case. What a checked
tree gives uses its arguments in scope, whatever plain texts are put in and whichever branches are
taken. The skeleton passes. -/
namespace ImagePipeline.Text

/-- A text that neither uses an argument nor ends a line. -/
def Plain (s : List Char) : Prop := '$' ∉ s ∧ '\n' ∉ s

instance (s : List Char) : Decidable (Plain s) := inferInstanceAs (Decidable (_ ∧ _))

theorem Plain.append {s t : List Char} (front : Plain s) (back : Plain t) : Plain (s ++ t) :=
  ⟨fun member => (List.mem_append.mp member).elim front.1 back.1,
    fun member => (List.mem_append.mp member).elim front.2 back.2⟩

theorem Plain.of_subset {s t : List Char} (plain : Plain t) (sub : s ⊆ t) : Plain s :=
  ⟨fun member => plain.1 (sub member), fun member => plain.2 (sub member)⟩

/-- A property that plain texts have, and that a text passes on to those with fewer
characters. -/
structure Harmless (P : List Char → Prop) : Prop where
  plain : ∀ s, Plain s → P s
  subset : ∀ s t, s ⊆ t → P t → P s

theorem plain_harmless : Harmless Plain := ⟨fun _ plain => plain, fun _ _ sub => (·.of_subset sub)⟩

end ImagePipeline.Text

namespace ImagePipeline.Template
open Dockerfile (declared? startsStage scopeAfter Scoped)

/-! ### The check -/

/-- A piece that takes no part in a use which begins or ends outside of it. -/
def Piece.settled : Piece → Bool
  | .literal s => Dockerfile.settled false s && !s.contains '\n'
  | .action _ | .unclosed => true

def Piece.uses : Piece → List (List Char)
  | .literal s => Dockerfile.uses s
  | .action _ | .unclosed => []

/-- What a line starts with, whatever is put into it. -/
def frontOf : List Piece → List Char
  | .literal s :: _ => Text.trim s
  | _ => []

/-- The arguments in scope behind a line in any case. Its front must tell what it declares; if it
may go on to start a stage, nothing is in scope. -/
def scopeBehind (scope : List (List Char)) : List Piece → Option (List (List Char))
  | [.literal s] => some (scopeAfter scope (Text.trim s))
  | ps =>
    let front := frontOf ps
    if front.isEmpty || !Dockerfile.declaresAlone front then none
    else if Text.clashes "FROM ".toList front then some (scopeAfter scope front)
    else some []

/-- The arguments that a line with this front can use. If it may start a stage, there are none. -/
def usable (scope : List (List Char)) (front : List Char) : List (List Char) :=
  if Text.clashes "FROM ".toList front then scope else []

/-- Checks a line of text, with these arguments in scope. The result is the scope behind it. -/
def lineScope (declared scope : List (List Char)) (ps : List Piece) : Option (List (List Char)) :=
  let front := frontOf ps
  if ps.all Piece.settled &&
      (ps.flatMap Piece.uses).all
        (fun name => !declared.contains name || (usable scope front).contains name) &&
      (declared? front).all declared.contains then
    scopeBehind scope ps
  else none

mutual

def Node.scope (declared scope : List (List Char)) : Node → Option (List (List Char))
  | .text _ content => lineScope declared scope (Template.pieces false [] content)
  | .branch _ _ chosen otherwise => do
    let first ← nodesScope declared scope chosen
    let second ← nodesScope declared scope otherwise
    return first.filter second.contains
  | .loop body => do
    let behind ← nodesScope declared scope body
    if scope.all behind.contains then return scope else none

/-- Checks nodes, with these arguments in scope. The result is what is in scope behind them in
any case: behind both branches of a guard, and behind a loop however often it runs. -/
def nodesScope (declared scope : List (List Char)) : List Node → Option (List (List Char))
  | [] => some scope
  | n :: ns => do nodesScope declared (← n.scope declared scope) ns

end

/-! ### What checked nodes give -/

/-- Lines that use declared arguments in scope and declare no others, from these arguments in
scope to those. -/
structure Walks (declared before behind : List (List Char)) (lines : List (List Char)) : Prop where
  unbroken : ∀ line ∈ lines, '\n' ∉ line
  declares : ∀ line ∈ lines, ∀ name ∈ declared? (Text.trim line), name ∈ declared
  uses : ∀ scope, before ⊆ scope → Scoped declared scope (lines.map Text.trim) ∧
    behind ⊆ (lines.map Text.trim).foldl scopeAfter scope

namespace Walks

variable {declared before behind : List (List Char)} {lines more : List (List Char)}

theorem nil (sub : behind ⊆ before) : Walks declared before behind [] :=
  ⟨by simp, by simp, fun _ start => ⟨trivial, List.Subset.trans sub start⟩⟩

theorem append {middle : List (List Char)} (front : Walks declared before middle lines)
    (back : Walks declared middle behind more) : Walks declared before behind (lines ++ more) := by
  refine ⟨List.forall_mem_append.mpr ⟨front.unbroken, back.unbroken⟩,
    List.forall_mem_append.mpr ⟨front.declares, back.declares⟩, fun scope start => ?_⟩
  obtain ⟨first, reached⟩ := front.uses scope start
  obtain ⟨second, reached'⟩ := back.uses _ reached
  rw [List.map_append, List.foldl_append]
  exact ⟨first.append second, reached'⟩

theorem weaken {less : List (List Char)} (walks : Walks declared before behind lines)
    (sub : less ⊆ behind) : Walks declared before less lines := by
  refine ⟨walks.unbroken, walks.declares, fun scope start => ?_⟩
  obtain ⟨inScope, reached⟩ := walks.uses scope start
  exact ⟨inScope, List.Subset.trans sub reached⟩

end Walks

/-- What holds of the texts that a context can put in. -/
structure Context.Texts (P : List Char → Prop) (c : Context) : Prop where
  values : ∀ entry ∈ c.values, P entry.2.toList
  packages : ∀ p ∈ c.packages, P p.toList

/-- A context with plain texts only. -/
structure Context.Plain (c : Context) : Prop where
  values : ∀ entry ∈ c.values, Text.Plain entry.2.toList
  packages : ∀ p ∈ c.packages, Text.Plain p.toList

theorem mem_of_lookup {α : Type} {entries : List (String × α)} {name : String} {a : α}
    (found : entries.lookup name = some a) : (name, a) ∈ entries := by
  obtain ⟨front, back, rfl, -⟩ := List.lookup_eq_some_iff.mp found
  exact List.mem_append_right _ List.mem_cons_self

/-- What holds of every value, and of the words that stand for flags, holds of what a name stands
for. -/
theorem Context.value_or_word {P : String → Prop} {c : Context} {name value : String}
    (values : ∀ name value, c.values.lookup name = some value → P value)
    (words : P "true" ∧ P "false") (found : c.value? name = some value) : P value := by
  rw [Context.value?, Option.orElse_eq_orElse, Option.orElse_eq_or] at found
  rcases Option.or_eq_some_iff.mp found with given | ⟨-, flag⟩
  · exact values name value given
  · obtain ⟨on, -, rfl⟩ := Option.map_eq_some_iff.mp flag
    cases on with
    | true => exact words.1
    | false => exact words.2

/-- The texts of flags are plain too. -/
theorem Context.Texts.value {P : List Char → Prop} {c : Context} {name value : String}
    (harmless : Text.Harmless P) (texts : c.Texts P) (found : c.value? name = some value) :
    P value.toList := by
  refine Context.value_or_word (P := fun s => P s.toList) (fun name value given => ?_) ?_ found
  · exact texts.values _ (mem_of_lookup given)
  · exact ⟨harmless.plain _ (by decide), harmless.plain _ (by decide)⟩

theorem Context.Plain.value {c : Context} {name value : String} (plain : c.Plain)
    (found : c.value? name = some value) : Text.Plain value.toList :=
  Context.Texts.value Text.plain_harmless ⟨plain.values, plain.packages⟩ found

section Lines

variable {c : Context} {item : Option String} {n : Nat}

theorem pieceText_settled {p : Piece} {s : List Char} (plain : c.Plain)
    (inItem : ∀ p ∈ item, Text.Plain p.toList) (settled : p.settled = true)
    (found : pieceText c item n p = .ok s) :
    Dockerfile.settled false s = true ∧ Dockerfile.uses s = p.uses ∧ '\n' ∉ s := by
  cases p with
  | literal t =>
    cases found
    simp only [Piece.settled, Bool.and_eq_true, Bool.not_eq_true', List.contains_eq_mem,
      decide_eq_false_iff_not] at settled
    exact ⟨settled.1, rfl, settled.2⟩
  | action inner =>
    have put := actionValue_of (fun _ _ known => plain.value known) inItem found
    exact ⟨Dockerfile.settled_of_not_mem put.1, Dockerfile.uses_of_not_mem put.1, put.2⟩
  | unclosed => cases found

/-- The uses in a line are those in its literal text, and nothing in it ends a line. -/
theorem piecesText_settled {ps : List Piece} {s : List Char} (plain : c.Plain)
    (inItem : ∀ p ∈ item, Text.Plain p.toList) (settled : ps.all Piece.settled = true)
    (found : piecesText c item n ps = .ok s) :
    Dockerfile.uses s = ps.flatMap Piece.uses ∧ '\n' ∉ s := by
  induction ps generalizing s with
  | nil =>
    cases found
    exact ⟨rfl, List.not_mem_nil⟩
  | cons p ps ih =>
    obtain ⟨first, others⟩ := Bool.and_eq_true_iff.mp settled
    obtain ⟨front, here, found⟩ := result_of_bind found
    obtain ⟨rest, behind, found⟩ := result_of_bind found
    cases found
    obtain ⟨ended, uses, feed⟩ := pieceText_settled plain inItem first here
    obtain ⟨uses', feed'⟩ := ih others behind
    have start : Dockerfile.settled (none : Option (List Char)).isSome front = true := ended
    refine ⟨?_, fun member => (List.mem_append.mp member).elim feed feed'⟩
    rw [Dockerfile.uses, Dockerfile.usesFrom_append start, uses', ← Dockerfile.uses, uses,
      List.flatMap_cons]

/-- A text starts with the front of its pieces. -/
theorem frontOf_front {ps : List Piece} {s : List Char} (given : frontOf ps ≠ [])
    (found : piecesText c item n ps = .ok s) : frontOf ps <+: Text.trim s := by
  match ps with
  | .literal t :: ps =>
    obtain ⟨front, here, found⟩ := result_of_bind found
    obtain ⟨rest, _, found⟩ := result_of_bind found
    cases here
    cases found
    exact Text.trim_prefix given rest
  | [] | .action _ :: _ | .unclosed :: _ => exact absurd rfl given

/-- The front of a line decides what the line declares and whether it starts a stage. -/
theorem scopeBehind_sound {scope behind : List (List Char)} {ps : List Piece} {s : List Char}
    (known : scopeBehind scope ps = some behind) (found : piecesText c item n ps = .ok s) :
    declared? (Text.trim s) = declared? (frontOf ps) ∧
      ∀ wider, scope ⊆ wider → behind ⊆ scopeAfter wider (Text.trim s) := by
  unfold scopeBehind at known
  split at known
  · rename_i t
    obtain rfl : t ++ [] = s := Except.ok.inj found
    cases known
    rw [List.append_nil]
    exact ⟨rfl, fun wider sub => Dockerfile.scopeAfter_mono sub _⟩
  · dsimp only at known
    split at known
    · cases known
    · rename_i decides
      simp only [Bool.or_eq_true, List.isEmpty_iff, Bool.not_eq_true', not_or,
        Bool.not_eq_false] at decides
      obtain ⟨given, alone⟩ := decides
      obtain ⟨rest, whole⟩ := frontOf_front given found
      rw [← whole]
      refine ⟨Dockerfile.declared_append alone rest, fun wider sub => ?_⟩
      split at known <;> cases known
      · rename_i clash
        rw [Dockerfile.scopeAfter_append alone clash]
        exact Dockerfile.scopeAfter_mono sub _
      · exact List.nil_subset _

theorem startsStage_of_front {ps : List Piece} {s : List Char}
    (clash : Text.clashes "FROM ".toList (frontOf ps) = true)
    (found : piecesText c item n ps = .ok s) : startsStage (Text.trim s) = false := by
  have given : frontOf ps ≠ [] := by
    intro nothing
    rw [nothing] at clash
    cases clash
  obtain ⟨rest, whole⟩ := frontOf_front given found
  rw [← whole]
  exact Dockerfile.startsStage_of_clash clash rest

theorem line_walks {declared scope behind : List (List Char)} {ps : List Piece} {s : List Char}
    (plain : c.Plain) (inItem : ∀ p ∈ item, Text.Plain p.toList)
    (checked : lineScope declared scope ps = some behind)
    (found : piecesText c item n ps = .ok s) : Walks declared scope behind [s] := by
  unfold lineScope at checked
  dsimp only at checked
  split at checked
  · rename_i checks
    simp only [Bool.and_eq_true, Option.all_eq_true] at checks
    obtain ⟨⟨settled, inScope⟩, declares⟩ := checks
    obtain ⟨used, feed⟩ := piecesText_settled plain inItem settled found
    obtain ⟨same, reached⟩ := scopeBehind_sound checked found
    refine ⟨by simpa using feed, ?_, fun wider start => ⟨⟨fun name use member => ?_, trivial⟩, ?_⟩⟩
    · rw [← same] at declares
      simpa using declares
    · rw [Dockerfile.uses_trim, used] at use
      have known := List.all_eq_true.mp inScope name use
      rw [usable] at known
      split at known
      · rename_i clash
        exact ⟨startsStage_of_front clash found, start (by simpa [member] using known)⟩
      · simp [member] at known
    · exact reached wider start
  · cases checked

end Lines

section Nodes

variable {c : Context} {declared : List (List Char)}

theorem forPackages_walks {scope : List (List Char)} {f : String → Except Fault (List (List Char))}
    {ps : List String} {lines : List (List Char)}
    (each : ∀ p ∈ ps, ∀ lines, f p = .ok lines → Walks declared scope scope lines)
    (found : forPackages f ps = .ok lines) : Walks declared scope scope lines := by
  induction ps generalizing lines with
  | nil =>
    cases found
    exact .nil (List.Subset.refl _)
  | cons p ps ih =>
    obtain ⟨here, others⟩ := List.forall_mem_cons.mp each
    obtain ⟨front, first, found⟩ := result_of_bind found
    obtain ⟨rest, behind, found⟩ := result_of_bind found
    cases found
    exact (here front first).append (ih others behind)

mutual

theorem Node.walks (plain : c.Plain) {item : Option String}
    (inItem : ∀ p ∈ item, Text.Plain p.toList) : (node : Node) →
    {scope behind lines : List (List Char)} → node.scope declared scope = some behind →
      node.render c item = .ok lines → Walks declared scope behind lines
  | .text n content, scope, behind, lines, checked, rendered => by
    obtain ⟨line, found, rendered⟩ := result_of_bind rendered
    cases rendered
    exact line_walks plain inItem checked found
  | .branch n guard chosen otherwise, scope, behind, lines, checked, rendered => by
    obtain ⟨first, inside, checked⟩ := Option.bind_eq_some_iff.mp checked
    obtain ⟨second, beside, checked⟩ := Option.bind_eq_some_iff.mp checked
    cases checked
    rw [Node.render] at rendered
    split at rendered
    · cases rendered
    · exact (nodes_walks plain inItem chosen inside rendered).weaken (List.filter_subset_self _)
    · refine (nodes_walks plain inItem otherwise beside rendered).weaken fun name member => ?_
      exact List.contains_iff_mem.mp (List.mem_filter.mp member).2
  | .loop body, scope, behind, lines, checked, rendered => by
    obtain ⟨again, inside, checked⟩ := Option.bind_eq_some_iff.mp checked
    split at checked
    · rename_i kept
      cases checked
      refine forPackages_walks (fun p member those found => ?_) rendered
      have item : ∀ q ∈ some p, Text.Plain q.toList := by
        simpa using plain.packages p member
      refine (nodes_walks plain item body inside found).weaken fun name known => ?_
      exact List.contains_iff_mem.mp (List.all_eq_true.mp kept name known)
    · cases checked

/-- The check is sound: what checked nodes give declares what they may declare, and uses it in
scope. -/
theorem nodes_walks (plain : c.Plain) {item : Option String}
    (inItem : ∀ p ∈ item, Text.Plain p.toList) : (nodes : List Node) →
    {scope behind lines : List (List Char)} → nodesScope declared scope nodes = some behind →
      renderNodes c item nodes = .ok lines → Walks declared scope behind lines
  | [], scope, behind, lines, checked, rendered => by
    cases checked
    cases rendered
    exact .nil (List.Subset.refl _)
  | node :: nodes, scope, behind, lines, checked, rendered => by
    obtain ⟨middle, first, others⟩ := Option.bind_eq_some_iff.mp checked
    obtain ⟨front, rest, here, further, rfl⟩ := renderNodes_cons_ok.mp rendered
    exact (Node.walks plain inItem node first here).append (nodes_walks plain inItem nodes others further)

end

end Nodes

/-! ### What a checked template gives -/

/-- A line that is put into a text is found there, but for blanks at its end. -/
theorem trim_lines {line : List Char} (feed : '\n' ∉ line) :
    (Text.lines (line ++ ['\n'])).map Text.trim = [Text.trim line] := by
  obtain ⟨first, cut, same | carriage⟩ := Text.lines_first_cut feed
  · rw [cut, same, List.map_singleton]
  · rw [cut, carriage, Text.trim_concat_blank (by decide), List.map_singleton]

/-- The lines of a rendered text are the lines of its nodes, but for the blanks around them. -/
theorem trimmedLines_assemble {template : List Char} {lines : List (List Char)}
    (ends : Text.endsWithLineFeed template = true) (unbroken : ∀ line ∈ lines, '\n' ∉ line) :
    let text := String.ofList (assemble template lines)
    Dockerfile.trimmedLines text = [] ∨
      Dockerfile.trimmedLines text = lines.map Text.trim := by
  dsimp only
  rw [Dockerfile.trimmedLines, String.toList_ofList]
  by_cases given : Text.unlines lines = []
  · refine .inl ?_
    simp [assemble, given, Text.lines]
  · refine .inr ?_
    rw [assemble_eq_flatMap ends given, Text.lines_flatMap]
    clear given
    induction lines with
    | nil => rfl
    | cons line lines ih =>
      obtain ⟨feed, feeds⟩ := List.forall_mem_cons.mp unbroken
      rw [List.flatMap_cons, List.map_append, trim_lines feed, ih feeds]
      rfl

theorem render_in_scope {template text : String} {nodes : List Node} {c : Context}
    {declared behind : List (List Char)} (ends : Text.endsWithLineFeed template.toList = true)
    (parsed : parse template.toList = .ok nodes)
    (checked : nodesScope declared [] nodes = some behind) (plain : c.Plain)
    (rendered : render template c = .ok text) :
    Dockerfile.outOfScope text = [] ∧
      Dockerfile.UsedInScope (Dockerfile.trimmedLines text) := by
  obtain ⟨_, lines, parsed', given, rfl⟩ := of_render_ok rendered
  cases parsed.symm.trans parsed'
  have walks := nodes_walks plain (by simp) nodes checked given
  obtain ⟨inScope, -⟩ := walks.uses [] (List.Subset.refl _)
  have all : (lines.map Text.trim).filterMap Dockerfile.declared? ⊆ declared := by
    intro name member
    obtain ⟨_, among, declares⟩ := List.mem_filterMap.mp member
    obtain ⟨line, inside, rfl⟩ := List.mem_map.mp among
    exact walks.declares line inside name declares
  unfold Dockerfile.outOfScope
  dsimp only
  rcases trimmedLines_assemble ends walks.unbroken with nothing | same
  · rw [nothing]
    exact ⟨rfl, by simp [Dockerfile.UsedInScope]⟩
  · rw [same]
    exact ⟨(inScope.fewer all).no_misuse [], inScope.usedInScope all⟩

end ImagePipeline.Template
