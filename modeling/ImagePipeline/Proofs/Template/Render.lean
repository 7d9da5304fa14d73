import ImagePipeline.Template.Render

/-! When a tree can be rendered: the names that it uses are bound, the dot stands in loops
only and every action is closed. -/
namespace ImagePipeline.Template

/-- The names that have a value, and those of them that are flags. -/
structure Names where
  values : List String
  flags : List String

def Context.names (c : Context) : Names :=
  ⟨c.values.map Prod.fst ++ c.flags.map Prod.fst, c.flags.map Prod.fst⟩

theorem lookup_of_mem {α : Type} {entries : List (String × α)} {name : String}
    (member : name ∈ entries.map Prod.fst) : ∃ a, entries.lookup name = some a := by
  induction entries with
  | nil => cases member
  | cons entry rest ih =>
    obtain ⟨other, a⟩ := entry
    rw [List.lookup_cons]
    by_cases same : name = other
    · exact ⟨a, by simp [same]⟩
    · have apart : (name == other) = false := beq_eq_false_iff_ne.mpr same
      rw [apart]
      exact ih ((List.mem_cons.mp member).resolve_left same)

namespace Context

variable {c : Context} {name : String}

theorem flag_of_mem (member : name ∈ c.names.flags) : ∃ on, c.flag? name = some on :=
  lookup_of_mem member

theorem value_of_mem (member : name ∈ c.names.values) : ∃ v, c.value? name = some v := by
  rcases List.mem_append.mp member with value | flag
  · obtain ⟨v, found⟩ := lookup_of_mem value
    exact ⟨v, by rw [value?, found]; rfl⟩
  · obtain ⟨on, found⟩ := flag_of_mem flag
    rw [value?, found]
    cases c.values.lookup name with
    | some v => exact ⟨v, rfl⟩
    | none => exact ⟨_, rfl⟩

end Context

def Piece.closed (names : Names) (inLoop : Bool) : Piece → Bool
  | .literal _ => true
  | .action inner =>
    if actionText inner == ['.'] then inLoop
    else ((fieldName? (actionText inner)).map String.ofList).any names.values.contains
  | .unclosed => false

def Guard.closed (names : Names) : Guard → Bool
  | .flag name _ => names.flags.contains name
  | .baseIn _ => true

mutual

def Node.closed (names : Names) (inLoop : Bool) : Node → Bool
  | .text _ content => (pieces false [] content).all (Piece.closed names inLoop)
  | .branch _ guard chosen otherwise =>
    guard.closed names && nodesClosed names inLoop chosen && nodesClosed names inLoop otherwise
  | .loop body => nodesClosed names true body

/-- Everything that nodes refer to is there. -/
def nodesClosed (names : Names) (inLoop : Bool) : List Node → Bool
  | [] => true
  | n :: ns => n.closed names inLoop && nodesClosed names inLoop ns

end

variable {c : Context} {item : Option String}

/-- What an action puts in is a value or the current package. -/
theorem actionValue_of {P : List Char → Prop} {n : Nat} {inner s : List Char}
    (values : ∀ name value, c.value? name = some value → P value.toList)
    (inItem : ∀ p ∈ item, P p.toList) (found : actionValue c item n inner = .ok s) : P s := by
  unfold actionValue at found
  dsimp only at found
  split at found
  · split at found
    · cases found
      exact inItem _ rfl
    · cases found
  · split at found
    · cases found
    · split at found
      · rename_i value known
        cases found
        exact values _ value known
      · cases found

theorem pieceText_of_closed {p : Piece} (n : Nat) (closed : p.closed c.names item.isSome = true) :
    ∃ s, pieceText c item n p = .ok s := by
  cases p with
  | literal s => exact ⟨s, rfl⟩
  | unclosed => cases closed
  | action inner =>
    simp only [Piece.closed] at closed
    simp only [pieceText, actionValue]
    split at closed <;> rename_i dot <;> simp only [dot, if_true, if_false, Bool.false_eq_true]
    · obtain ⟨package, rfl⟩ := Option.isSome_iff_exists.mp closed
      exact ⟨_, rfl⟩
    · cases field : fieldName? (actionText inner) with
      | none => simp [field] at closed
      | some name =>
        have member : String.ofList name ∈ c.names.values := by simpa [field] using closed
        obtain ⟨v, found⟩ := Context.value_of_mem member
        exact ⟨v.toList, by simp only [found]⟩

theorem piecesText_of_closed {ps : List Piece} (n : Nat)
    (closed : ps.all (Piece.closed c.names item.isSome) = true) :
    ∃ s, piecesText c item n ps = .ok s := by
  induction ps with
  | nil => exact ⟨[], rfl⟩
  | cons p ps ih =>
    obtain ⟨first, others⟩ := Bool.and_eq_true_iff.mp closed
    obtain ⟨front, found⟩ := pieceText_of_closed n first
    obtain ⟨rest, others⟩ := ih others
    exact ⟨front ++ rest, by simp only [piecesText, found, others]; rfl⟩

theorem holds_of_closed {guard : Guard} (n : Nat) (closed : guard.closed c.names = true) :
    ∃ on, holds c n guard = .ok on := by
  cases guard with
  | flag name negated =>
    obtain ⟨on, found⟩ := Context.flag_of_mem (List.contains_iff_mem.mp closed)
    exact ⟨on != negated, by simp only [holds, found]⟩
  | baseIn names => exact ⟨_, rfl⟩

theorem forPackages_of_all {f : String → Except Fault (List (List Char))} (ps : List String)
    (all : ∀ p, ∃ lines, f p = .ok lines) : ∃ lines, forPackages f ps = .ok lines := by
  induction ps with
  | nil => exact ⟨[], rfl⟩
  | cons p ps ih =>
    obtain ⟨front, first⟩ := all p
    obtain ⟨rest, others⟩ := ih
    exact ⟨front ++ rest, by simp only [forPackages, first, others]; rfl⟩

mutual

theorem Node.render_of_closed (item : Option String) : (node : Node) →
    node.closed c.names item.isSome = true → ∃ lines, node.render c item = .ok lines
  | .text n content, closed => by
    obtain ⟨s, found⟩ := piecesText_of_closed n closed
    exact ⟨[s], by simp only [Node.render, substitute, found]; rfl⟩
  | .branch n guard chosen otherwise, closed => by
    simp only [Node.closed, Bool.and_eq_true] at closed
    obtain ⟨⟨bound, first⟩, second⟩ := closed
    obtain ⟨on, decided⟩ := holds_of_closed n bound
    simp only [Node.render, decided]
    cases on with
    | true => exact renderNodes_of_closed item chosen first
    | false => exact renderNodes_of_closed item otherwise second
  | .loop body, closed =>
    forPackages_of_all c.packages fun package =>
      renderNodes_of_closed (some package) body closed

/-- Nodes that refer only to what is there can be rendered. -/
theorem renderNodes_of_closed (item : Option String) : (nodes : List Node) →
    nodesClosed c.names item.isSome nodes = true → ∃ lines, renderNodes c item nodes = .ok lines
  | [], _ => ⟨[], rfl⟩
  | node :: nodes, closed => by
    simp only [nodesClosed, Bool.and_eq_true] at closed
    obtain ⟨front, first⟩ := Node.render_of_closed item node closed.1
    obtain ⟨rest, others⟩ := renderNodes_of_closed item nodes closed.2
    exact ⟨front ++ rest, by simp only [renderNodes, first, others]; rfl⟩

end

theorem renderNodes_cons_ok {node : Node} {nodes : List Node} {lines : List (List Char)} :
    renderNodes c item (node :: nodes) = .ok lines ↔
      ∃ front rest, node.render c item = .ok front ∧ renderNodes c item nodes = .ok rest ∧
        lines = front ++ rest := by
  rw [renderNodes]
  cases node.render c item with
  | error e => simp [bind, Except.bind]
  | ok front =>
    cases renderNodes c item nodes with
    | error e => simp [bind, Except.bind]
    | ok rest => simp [bind, Except.bind, pure, Except.pure, eq_comm]

/-- Nodes that are left out take lines away and change no others. -/
theorem renderNodes_sublist {kept nodes : List Node} {lines : List (List Char)}
    (sublist : kept.Sublist nodes) (rendered : renderNodes c item nodes = .ok lines) :
    ∃ those, renderNodes c item kept = .ok those ∧ those.Sublist lines := by
  induction sublist generalizing lines with
  | slnil => exact ⟨lines, rendered, .refl lines⟩
  | cons node _ ih =>
    obtain ⟨front, rest, -, others, rfl⟩ := renderNodes_cons_ok.mp rendered
    obtain ⟨those, found, inside⟩ := ih others
    exact ⟨those, found, inside.trans (List.sublist_append_right front rest)⟩
  | cons_cons node _ ih =>
    obtain ⟨front, rest, first, others, rfl⟩ := renderNodes_cons_ok.mp rendered
    obtain ⟨those, found, inside⟩ := ih others
    exact ⟨front ++ those, renderNodes_cons_ok.mpr ⟨front, those, first, found, rfl⟩,
      inside.append_left front⟩

theorem render_ok {template : String} {nodes : List Node} {lines : List (List Char)}
    (parsed : parse template.toList = .ok nodes) (rendered : renderNodes c none nodes = .ok lines) :
    render template c = .ok (String.ofList (assemble template.toList lines)) := by
  simp only [render, renderChars, parsed, rendered, bind, Except.bind, pure, Except.pure,
    Except.map]

theorem renderChars_of_render {template text : String}
    (rendered : render template c = .ok text) : renderChars template.toList c = .ok text.toList := by
  rw [render] at rendered
  cases chars : renderChars template.toList c with
  | error e =>
    rw [chars] at rendered
    cases rendered
  | ok s =>
    rw [chars] at rendered
    cases rendered
    rw [String.toList_ofList]

end ImagePipeline.Template
