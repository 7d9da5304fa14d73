import ImagePipeline.Proofs.Template.Blocks
import ImagePipeline.Template.Render
import Mathlib.Data.List.Forall2

/-! Templates side by side. Where a template renders, its parts may be replaced by others that
give the same lines, and its lines may move to other numbers: the parser builds trees that stay
side by side line by line, whatever blocks are open. -/
namespace ImagePipeline.Template

section Results

variable {α β : Type} {t u : Except Fault α} {f g : α → Except Fault β}

theorem result_of_bind {b : β} (found : t >>= f = .ok b) : ∃ a, t = .ok a ∧ f a = .ok b := by
  cases result : t with
  | error e =>
    rw [result] at found
    cases found
  | ok a =>
    rw [result] at found
    exact ⟨a, rfl, found⟩

/-- What one result gives the other gives too. Where the first is a fault the second may be
anything. -/
def Keeps (t u : Except Fault α) : Prop := ∀ a, t = .ok a → u = .ok a

theorem Keeps.refl (t : Except Fault α) : Keeps t t := fun _ found => found

theorem Keeps.fault (e : Fault) (u : Except Fault α) : Keeps (.error e) u := fun _ => nofun

theorem Keeps.bind (first : Keeps t u) (next : ∀ a, Keeps (f a) (g a)) :
    Keeps (t >>= f) (u >>= g) := by
  intro b found
  obtain ⟨a, result, following⟩ := result_of_bind found
  rw [first a result]
  exact next a b following

end Results

variable {c : Context} {item : Option String} {m n : Nat}

theorem actionValue_keeps (inner : List Char) :
    Keeps (actionValue c item n inner) (actionValue c item m inner) := by
  unfold actionValue
  dsimp only
  split
  · cases item with
    | some package => exact .refl _
    | none => exact .fault _ _
  · cases fieldName? (actionText inner) with
    | none => exact .fault _ _
    | some name =>
      dsimp only
      split
      · exact .refl _
      · exact .fault _ _

theorem piecesText_keeps (ps : List Piece) :
    Keeps (piecesText c item n ps) (piecesText c item m ps) := by
  induction ps with
  | nil => exact .refl _
  | cons p ps ih =>
    have first : Keeps (pieceText c item n p) (pieceText c item m p) := by
      cases p with
      | literal s => exact .refl _
      | action inner => exact actionValue_keeps inner
      | unclosed => exact .fault _ _
    exact first.bind fun _ => ih.bind fun _ => .refl _

theorem holds_keeps (guard : Guard) : Keeps (holds c n guard) (holds c m guard) := by
  cases guard with
  | flag name negated =>
    unfold holds
    dsimp only
    split
    · exact .refl _
    · exact .fault _ _
  | baseIn names => exact .refl _

theorem forPackages_keeps {f g : String → Except Fault (List (List Char))}
    (each : ∀ package, Keeps (f package) (g package)) (ps : List String) :
    Keeps (forPackages f ps) (forPackages g ps) := by
  induction ps with
  | nil => exact .refl _
  | cons p ps ih => exact (each p).bind fun _ => ih.bind fun _ => .refl _

/-! ### Nodes -/

/-- What the nodes give, the others give too, for every package. -/
def Refines (c : Context) (nodes others : List Node) : Prop :=
  ∀ item, Keeps (renderNodes c item nodes) (renderNodes c item others)

theorem renderNodes_append (c : Context) (item : Option String) (nodes more : List Node) :
    renderNodes c item (nodes ++ more) = do
      let front ← renderNodes c item nodes
      let rest ← renderNodes c item more
      return front ++ rest := by
  induction nodes with
  | nil =>
    rw [List.nil_append, renderNodes]
    cases renderNodes c item more <;> rfl
  | cons node nodes ih =>
    rw [List.cons_append, renderNodes, renderNodes, ih]
    cases node.render c item with
    | error e => rfl
    | ok front =>
      cases renderNodes c item nodes with
      | error e => rfl
      | ok rest =>
        cases renderNodes c item more with
        | error e => rfl
        | ok last =>
          simp only [bind, Except.bind, pure, Except.pure, List.append_assoc]

theorem renderNodes_single (c : Context) (item : Option String) (node : Node) :
    renderNodes c item [node] = node.render c item := by
  rw [renderNodes, renderNodes]
  cases node.render c item with
  | error e => rfl
  | ok lines => simp only [bind, Except.bind, pure, Except.pure, List.append_nil]

namespace Refines

variable {nodes others more those : List Node}

theorem refl (nodes : List Node) : Refines c nodes nodes := fun _ => .refl _

theorem append (front : Refines c nodes others) (back : Refines c more those) :
    Refines c (nodes ++ more) (others ++ those) := by
  intro item
  rw [renderNodes_append, renderNodes_append]
  exact (front item).bind fun _ => (back item).bind fun _ => .refl _

theorem text (n m : Nat) (content : List Char) :
    Refines c [.text n content] [.text m content] := by
  intro item
  rw [renderNodes_single, renderNodes_single, Node.render, Node.render]
  exact (piecesText_keeps _).bind fun _ => .refl _

theorem branch (guard : Guard) (chosen : Refines c nodes others)
    (otherwise : Refines c more those) :
    Refines c [.branch n guard nodes more] [.branch m guard others those] := by
  intro item
  rw [renderNodes_single, renderNodes_single, Node.render, Node.render]
  cases decided : holds c n guard with
  | error e => exact .fault e _
  | ok on =>
    rw [holds_keeps guard on decided]
    cases on with
    | true => exact chosen item
    | false => exact otherwise item

theorem loop (body : Refines c nodes others) : Refines c [.loop nodes] [.loop others] := by
  intro item
  rw [renderNodes_single, renderNodes_single, Node.render, Node.render]
  exact forPackages_keeps (fun package => body (some package)) c.packages

/-- A block whose guard is decided gives what one of its branches gives. -/
theorem of_decided {guard : Guard} {on : Bool} (decided : holds c n guard = .ok on)
    (selected : Refines c (if on then nodes else more) those) :
    Refines c [.branch m guard nodes more] those := by
  intro item
  rw [renderNodes_single, Node.render, holds_keeps guard on decided]
  cases on with
  | true => exact selected item
  | false => exact selected item

end Refines

/-! ### The parser -/

/-- Open blocks side by side. -/
structure OpenBlock.Refines (c : Context) (b b' : OpenBlock) : Prop where
  opener : b'.opener = b.opener
  chosen : Template.Refines c b.chosen b'.chosen
  otherwise : Option.Rel (Template.Refines c) b.otherwise b'.otherwise

/-- Outlines side by side. -/
structure Outline.Refines (c : Context) (o o' : Outline) : Prop where
  root : Template.Refines c o.root o'.root
  blocks : List.Forall₂ (OpenBlock.Refines c) o.blocks o'.blocks

namespace OpenBlock.Refines

variable {b b' divided : OpenBlock}

theorem refl (b : OpenBlock) : OpenBlock.Refines c b b := by
  refine ⟨rfl, .refl _, ?_⟩
  cases b.otherwise with
  | none => exact .none
  | some nodes => exact .some (.refl nodes)

theorem divide (refines : b.Refines c b') (divides : b.divide? = some divided) :
    ∃ divided', b'.divide? = some divided' ∧ divided.Refines c divided' := by
  obtain ⟨opener, line, chosen, otherwise⟩ := b
  obtain ⟨opener', line', chosen', otherwise'⟩ := b'
  obtain ⟨same, inner, other⟩ := refines
  dsimp only at same inner other
  subst same
  cases opener' with
  | packages => cases divides
  | guard g =>
    cases other with
    | some => cases divides
    | none =>
      cases divides
      exact ⟨_, rfl, rfl, inner, .some (.refl [])⟩

theorem close (refines : b.Refines c b') : Template.Refines c [b.close] [b'.close] := by
  obtain ⟨opener, line, chosen, otherwise⟩ := b
  obtain ⟨opener', line', chosen', otherwise'⟩ := b'
  obtain ⟨same, inner, other⟩ := refines
  dsimp only at same inner other
  subst same
  cases opener' with
  | packages => exact .loop inner
  | guard g =>
    cases other with
    | some behind => exact .branch g inner behind
    | none => exact .branch g inner (.refl [])

end OpenBlock.Refines

namespace Outline.Refines

variable {o o' p : Outline} {nodes others : List Node}

theorem refl (o : Outline) : Outline.Refines c o o :=
  ⟨.refl _, List.forall₂_same.mpr fun b _ => .refl b⟩

theorem pushAll (refines : o.Refines c o') (more : Template.Refines c nodes others) :
    (o.pushAll nodes).Refines c (o'.pushAll others) := by
  obtain ⟨root, blocks⟩ := o
  obtain ⟨root', blocks'⟩ := o'
  obtain ⟨outside, inside⟩ := refines
  dsimp only at outside inside
  cases inside with
  | nil =>
    rw [pushAll_root, pushAll_root]
    exact ⟨outside.append more, .nil⟩
  | @cons b b' _ _ block outer =>
    obtain ⟨opener, line, chosen, otherwise⟩ := b
    obtain ⟨opener', line', chosen', otherwise'⟩ := b'
    obtain ⟨same, inner, other⟩ := block
    dsimp only at same inner other
    cases other with
    | none =>
      rw [pushAll_chosen, pushAll_chosen]
      exact ⟨outside, .cons ⟨same, inner.append more, .none⟩ outer⟩
    | some behind =>
      rw [pushAll_otherwise, pushAll_otherwise]
      exact ⟨outside, .cons ⟨same, inner, .some (behind.append more)⟩ outer⟩

theorem enter (refines : o.Refines c o') (opener : Opener) (n m : Nat) :
    (o.enter opener n).Refines c (o'.enter opener m) :=
  ⟨refines.root, .cons ⟨rfl, .refl [], .none⟩ refines.blocks⟩

/-- One line, which may have another number. -/
theorem add {line : List Char} {kind : LineKind} (refines : o.Refines c o')
    (added : o.add n line kind = .ok p) :
    ∃ p', o'.add m line kind = .ok p' ∧ p.Refines c p' := by
  cases kind with
  | text =>
    cases added
    exact ⟨_, rfl, refines.pushAll (.text n m line)⟩
  | opening g =>
    cases added
    exact ⟨_, rfl, refines.enter (.guard g) n m⟩
  | repeating =>
    cases added
    exact ⟨_, rfl, refines.enter .packages n m⟩
  | otherwise =>
    obtain ⟨root, blocks⟩ := o
    obtain ⟨root', blocks'⟩ := o'
    obtain ⟨outside, inside⟩ := refines
    dsimp only at outside inside
    cases inside with
    | nil => cases added
    | @cons b b' before before' block outer =>
      cases divides : b.divide? with
      | none => simp only [Outline.add, divides, reduceCtorEq] at added
      | some divided =>
        simp only [Outline.add, divides, Except.ok.injEq] at added
        subst added
        obtain ⟨divided', divides', refined⟩ := block.divide divides
        have again : Outline.add ⟨root', b' :: before'⟩ m line .otherwise =
            .ok ⟨root', divided' :: before'⟩ := by simp only [Outline.add, divides']
        exact ⟨_, again, outside, .cons refined outer⟩
  | closing =>
    obtain ⟨root, blocks⟩ := o
    obtain ⟨root', blocks'⟩ := o'
    obtain ⟨outside, inside⟩ := refines
    dsimp only at outside inside
    cases inside with
    | nil => cases added
    | cons block outer =>
      cases added
      have around : Outline.Refines c ⟨root, _⟩ ⟨root', _⟩ := ⟨outside, outer⟩
      exact ⟨_, rfl, around.pushAll block.close⟩

theorem finish (refines : o.Refines c o') (closed : o.finish = .ok nodes) :
    ∃ others, o'.finish = .ok others ∧ Template.Refines c nodes others := by
  obtain ⟨root, blocks⟩ := o
  obtain ⟨root', blocks'⟩ := o'
  obtain ⟨outside, inside⟩ := refines
  dsimp only at outside inside
  cases inside with
  | nil =>
    cases closed
    exact ⟨root', rfl, outside⟩
  | cons => cases closed

end Outline.Refines

/-- Whether a line can be read does not depend on its number. -/
theorem kindOf_keeps (line : List Char) : Keeps (kindOf n line) (kindOf m line) := by
  unfold kindOf
  split
  · exact .refl _
  · split
    · exact .refl _
    · exact .fault _ _

namespace Outline

variable {o o' p : Outline} {lines more : List (List Char)}

theorem addLines_append (n : Nat) (o : Outline) (lines more : List (List Char)) :
    addLines n o (lines ++ more) =
      addLines n o lines >>= fun o' => addLines (n + lines.length) o' more := by
  induction lines generalizing n o with
  | nil => rfl
  | cons line lines ih =>
    rw [List.cons_append, addLines, addLines]
    cases kindOf n line with
    | error e => rfl
    | ok kind =>
      cases added : o.add n line kind with
      | error e => simp only [added, bind, Except.bind]
      | ok o' =>
        simp only [added, bind, Except.bind]
        rw [ih, List.length_cons, Nat.add_right_comm, Nat.add_assoc]
        rfl

/-- Lines that may have other numbers. -/
theorem Refines.addLines (refines : o.Refines c o') (added : addLines n o lines = .ok p) :
    ∃ p', Outline.addLines m o' lines = .ok p' ∧ p.Refines c p' := by
  induction lines generalizing n m o o' with
  | nil =>
    cases added
    exact ⟨o', rfl, refines⟩
  | cons line lines ih =>
    rw [Outline.addLines] at added ⊢
    obtain ⟨kind, readable, added⟩ := result_of_bind added
    obtain ⟨middle, first, following⟩ := result_of_bind added
    obtain ⟨middle', first', refined⟩ := refines.add (m := m) first
    rw [kindOf_keeps line kind readable]
    simp only [first', bind, Except.bind]
    exact ih refined following

end Outline

end ImagePipeline.Template
