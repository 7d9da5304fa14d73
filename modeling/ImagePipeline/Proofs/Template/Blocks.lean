import ImagePipeline.Template.Tree

/-! The block grammar of templates. A template has a tree just if the kinds of its lines are
generated by the grammar, and the tree is that of a derivation: the parser's stack keeps the
lines read so far as whole nodes and as parts of open blocks. -/
namespace ImagePipeline.Template

/-- A line with its number, counted from one, and its kind. -/
structure ReadLine where
  number : Nat
  content : List Char
  kind : LineKind

/-- Lines that are read without a fault, the first of which has number `n`. -/
structure Reads (n : Nat) (lines : List (List Char)) (rs : List ReadLine) : Prop where
  numbered : rs.map (fun x => (x.content, x.number)) = lines.zipIdx n
  kinds : ∀ x ∈ rs, kindOf x.number x.content = .ok x.kind

/-- The kinds of lines that make up whole blocks. -/
inductive Blocks : List LineKind → Prop where
  | empty : Blocks []
  | text {rest : List LineKind} : Blocks rest → Blocks (.text :: rest)
  | branch {guard : Guard} {chosen rest : List LineKind} : Blocks chosen → Blocks rest →
      Blocks (.opening guard :: chosen ++ .closing :: rest)
  | divided {guard : Guard} {chosen otherwise rest : List LineKind} : Blocks chosen →
      Blocks otherwise → Blocks rest →
      Blocks (.opening guard :: chosen ++ .otherwise :: otherwise ++ .closing :: rest)
  | loop {body rest : List LineKind} : Blocks body → Blocks rest →
      Blocks (.repeating :: body ++ .closing :: rest)

/-- The nodes that lines form: one derivation in the block grammar, with the lines of every
block inside of its branches. -/
inductive Forms : List ReadLine → List Node → Prop where
  | empty : Forms [] []
  | text {x : ReadLine} {rest : List ReadLine} {nodes : List Node} : x.kind = .text →
      Forms rest nodes → Forms (x :: rest) (.text x.number x.content :: nodes)
  | branch {x z : ReadLine} {guard : Guard} {inner rest : List ReadLine}
      {chosen nodes : List Node} : x.kind = .opening guard → z.kind = .closing →
      Forms inner chosen → Forms rest nodes →
      Forms (x :: inner ++ z :: rest) (.branch x.number guard chosen [] :: nodes)
  | divided {x y z : ReadLine} {guard : Guard} {inner other rest : List ReadLine}
      {chosen otherwise nodes : List Node} : x.kind = .opening guard → y.kind = .otherwise →
      z.kind = .closing → Forms inner chosen → Forms other otherwise → Forms rest nodes →
      Forms (x :: inner ++ y :: other ++ z :: rest)
        (.branch x.number guard chosen otherwise :: nodes)
  | loop {x z : ReadLine} {inner rest : List ReadLine} {body nodes : List Node} :
      x.kind = .repeating → z.kind = .closing → Forms inner body → Forms rest nodes →
      Forms (x :: inner ++ z :: rest) (.loop body :: nodes)

namespace Forms

variable {rs more : List ReadLine} {nodes others : List Node}

theorem append (front : Forms rs nodes) (back : Forms more others) :
    Forms (rs ++ more) (nodes ++ others) := by
  induction front with
  | empty => exact back
  | text kind _ ih => exact .text kind ih
  | branch opens closes inner _ _ ih =>
    simpa only [List.cons_append, List.append_assoc] using branch opens closes inner ih
  | divided opens divides closes inner other _ _ _ ih =>
    simpa only [List.cons_append, List.append_assoc] using
      divided opens divides closes inner other ih
  | loop opens closes inner _ _ ih =>
    simpa only [List.cons_append, List.append_assoc] using loop opens closes inner ih

theorem generated (forms : Forms rs nodes) : Blocks (rs.map ReadLine.kind) := by
  induction forms with
  | empty => exact .empty
  | text kind _ ih =>
    rw [List.map_cons, kind]
    exact .text ih
  | branch opens closes _ _ inner rest =>
    simpa only [List.map_cons, List.map_append, opens, closes] using Blocks.branch inner rest
  | divided opens divides closes _ _ _ inner other rest =>
    simpa only [List.map_cons, List.map_append, opens, divides, closes] using
      Blocks.divided inner other rest
  | loop opens closes _ _ inner rest =>
    simpa only [List.map_cons, List.map_append, opens, closes] using Blocks.loop inner rest

/-- Lines of generated kinds form nodes. -/
theorem of_generated {kinds : List LineKind} (generated : Blocks kinds)
    (same : rs.map ReadLine.kind = kinds) : ∃ nodes, Forms rs nodes := by
  induction generated generalizing rs with
  | empty =>
    obtain rfl := List.map_eq_nil_iff.mp same
    exact ⟨[], .empty⟩
  | text _ ih =>
    obtain ⟨x, rest, rfl, kind, following⟩ := List.map_eq_cons_iff.mp same
    obtain ⟨nodes, forms⟩ := ih following
    exact ⟨_, .text kind forms⟩
  | branch _ _ inside behind =>
    obtain ⟨front, back, rfl, before, after⟩ := List.map_eq_append_iff.mp same
    obtain ⟨x, inner, rfl, opens, within⟩ := List.map_eq_cons_iff.mp before
    obtain ⟨z, rest, rfl, closes, following⟩ := List.map_eq_cons_iff.mp after
    obtain ⟨chosen, forms⟩ := inside within
    obtain ⟨nodes, others⟩ := behind following
    exact ⟨_, .branch opens closes forms others⟩
  | divided _ _ _ inside beside behind =>
    obtain ⟨front, back, rfl, before, after⟩ := List.map_eq_append_iff.mp same
    obtain ⟨front, middle, rfl, before, between⟩ := List.map_eq_append_iff.mp before
    obtain ⟨x, inner, rfl, opens, within⟩ := List.map_eq_cons_iff.mp before
    obtain ⟨y, other, rfl, divides, within'⟩ := List.map_eq_cons_iff.mp between
    obtain ⟨z, rest, rfl, closes, following⟩ := List.map_eq_cons_iff.mp after
    obtain ⟨chosen, forms⟩ := inside within
    obtain ⟨otherwise, forms'⟩ := beside within'
    obtain ⟨nodes, others⟩ := behind following
    exact ⟨_, .divided opens divides closes forms forms' others⟩
  | loop _ _ inside behind =>
    obtain ⟨front, back, rfl, before, after⟩ := List.map_eq_append_iff.mp same
    obtain ⟨x, inner, rfl, opens, within⟩ := List.map_eq_cons_iff.mp before
    obtain ⟨z, rest, rfl, closes, following⟩ := List.map_eq_cons_iff.mp after
    obtain ⟨body, forms⟩ := inside within
    obtain ⟨nodes, others⟩ := behind following
    exact ⟨_, .loop opens closes forms others⟩

/-- No block is divided or closed before it is opened. -/
theorem head_kind {x : ReadLine} (forms : Forms (x :: rs) nodes) : x.kind ≠ .closing := by
  cases forms with
  | text kind | branch kind | divided kind | loop kind =>
    rw [kind]
    exact LineKind.noConfusion

theorem nil_iff (forms : Forms rs nodes) : rs = [] ↔ nodes = [] := by
  cases forms <;> simp

end Forms

def Opener.kind : Opener → LineKind
  | .guard g => .opening g
  | .packages => .repeating

/-- The lines of a block that has not been closed, and what the parser keeps of them. -/
inductive Part : List ReadLine → OpenBlock → Prop where
  | chosen {x : ReadLine} {opener : Opener} {rs : List ReadLine} {nodes : List Node} :
      x.kind = opener.kind → Forms rs nodes → Part (x :: rs) ⟨opener, x.number, nodes, none⟩
  | otherwise {x y : ReadLine} {guard : Guard} {rs more : List ReadLine}
      {nodes others : List Node} : x.kind = .opening guard → y.kind = .otherwise →
      Forms rs nodes → Forms more others →
      Part (x :: rs ++ y :: more) ⟨.guard guard, x.number, nodes, some others⟩

/-- The lines read so far and the parser's stack, with the innermost open block in front.
Every line stands in the nodes that it has formed or in one of the open blocks. -/
inductive Stacked : List ReadLine → List Node → List OpenBlock → Prop where
  | root {rs : List ReadLine} {nodes : List Node} : Forms rs nodes → Stacked rs nodes []
  | inside {before rs : List ReadLine} {root : List Node} {b : OpenBlock}
      {blocks : List OpenBlock} : Stacked before root blocks → Part rs b →
      Stacked (before ++ rs) root (b :: blocks)

namespace Part

variable {rs more : List ReadLine} {b : OpenBlock} {n : Node}

theorem push (part : Part rs b) (forms : Forms more [n]) : Part (rs ++ more) (b.push n) := by
  cases part with
  | chosen opens inner => exact .chosen opens (inner.append forms)
  | otherwise opens divides inner other =>
    rw [List.append_assoc]
    exact .otherwise opens divides inner (other.append forms)

theorem divide {y : ReadLine} {divided : OpenBlock} (part : Part rs b)
    (kind : y.kind = .otherwise) (divides : b.divide? = some divided) :
    Part (rs ++ [y]) divided := by
  cases part with
  | chosen opens inner =>
    rename_i opener _ _
    cases opener with
    | guard g =>
      cases divides
      exact otherwise opens kind inner .empty
    | packages => cases divides
  | otherwise => cases divides

theorem close {z : ReadLine} (part : Part rs b) (kind : z.kind = .closing) :
    Forms (rs ++ [z]) [b.close] := by
  cases part with
  | chosen opens inner =>
    rename_i opener _ _
    cases opener with
    | guard g => exact .branch opens kind inner .empty
    | packages => exact .loop opens kind inner .empty
  | otherwise opens divides inner other => exact .divided opens divides kind inner other .empty

end Part

namespace Outline

variable {o o' : Outline} {rs more : List ReadLine} {x : ReadLine}

/-- Adds lines whose kinds are known. -/
def addAll (o : Outline) : List ReadLine → Except Fault Outline
  | [] => .ok o
  | x :: rs => do (← o.add x.number x.content x.kind).addAll rs

theorem addAll_cons (added : o.add x.number x.content x.kind = .ok o') :
    o.addAll (x :: rs) = o'.addAll rs := by
  rw [addAll, added]
  rfl

theorem addAll_append (added : o.addAll rs = .ok o') :
    o.addAll (rs ++ more) = o'.addAll more := by
  induction rs generalizing o with
  | nil =>
    cases added
    rfl
  | cons x rs ih =>
    cases first : o.add x.number x.content x.kind with
    | error e =>
      rw [addAll, first] at added
      cases added
    | ok middle =>
      rw [addAll_cons first] at added
      rw [List.cons_append, addAll_cons first, ih added]

def Holds (o : Outline) (rs : List ReadLine) : Prop := Stacked rs o.root o.blocks

theorem Holds.push {n : Node} (holds : o.Holds rs) (forms : Forms more [n]) :
    (o.push n).Holds (rs ++ more) := by
  obtain ⟨root, blocks⟩ := o
  cases holds with
  | root outside => exact .root (outside.append forms)
  | inside outer part =>
    rw [List.append_assoc]
    exact .inside outer (part.push forms)

theorem Holds.add (holds : o.Holds rs) (added : o.add x.number x.content x.kind = .ok o') :
    o'.Holds (rs ++ [x]) := by
  cases kind : x.kind with
  | text =>
    rw [kind] at added
    cases added
    exact holds.push (.text kind .empty)
  | opening g =>
    rw [kind] at added
    cases added
    exact .inside holds (.chosen kind .empty)
  | repeating =>
    rw [kind] at added
    cases added
    exact .inside holds (.chosen kind .empty)
  | otherwise =>
    rw [kind] at added
    obtain ⟨root, blocks⟩ := o
    cases holds with
    | root => cases added
    | inside outer part =>
      rename_i b _
      cases divides : b.divide? with
      | none => simp only [Outline.add, divides, reduceCtorEq] at added
      | some divided =>
        simp only [Outline.add, divides, Except.ok.injEq] at added
        subst added
        rw [List.append_assoc]
        exact .inside outer (part.divide kind divides)
  | closing =>
    rw [kind] at added
    obtain ⟨root, blocks⟩ := o
    cases holds with
    | root => cases added
    | inside outer part =>
      cases added
      rw [List.append_assoc]
      exact Holds.push outer (part.close kind)

theorem Holds.addAll (holds : o.Holds rs) (added : o.addAll more = .ok o') :
    o'.Holds (rs ++ more) := by
  induction more generalizing o rs with
  | nil =>
    cases added
    rwa [List.append_nil]
  | cons x more ih =>
    cases first : o.add x.number x.content x.kind with
    | error e =>
      rw [Outline.addAll, first] at added
      cases added
    | ok middle =>
      rw [addAll_cons first] at added
      have following := ih (holds.add first) added
      rwa [List.append_assoc] at following

theorem Holds.finish {nodes : List Node} (holds : o.Holds rs) (closed : o.finish = .ok nodes) :
    Forms rs nodes := by
  obtain ⟨root, blocks⟩ := o
  cases holds with
  | root forms =>
    cases closed
    exact forms
  | inside => cases closed

/-- Nodes behind those that are there. -/
def pushAll (o : Outline) (nodes : List Node) : Outline := nodes.foldl push o

theorem pushAll_root (root nodes : List Node) :
    pushAll ⟨root, []⟩ nodes = ⟨root ++ nodes, []⟩ := by
  induction nodes generalizing root with
  | nil => rw [List.append_nil]; rfl
  | cons n nodes ih =>
    have step := ih (root ++ [n])
    rwa [List.append_assoc] at step

theorem pushAll_chosen (root : List Node) (opener : Opener) (line : Nat)
    (chosen nodes : List Node) (blocks : List OpenBlock) :
    pushAll ⟨root, ⟨opener, line, chosen, none⟩ :: blocks⟩ nodes =
      ⟨root, ⟨opener, line, chosen ++ nodes, none⟩ :: blocks⟩ := by
  induction nodes generalizing chosen with
  | nil => rw [List.append_nil]; rfl
  | cons n nodes ih =>
    have step := ih (chosen ++ [n])
    rwa [List.append_assoc] at step

theorem pushAll_otherwise (root : List Node) (opener : Opener) (line : Nat)
    (chosen others nodes : List Node) (blocks : List OpenBlock) :
    pushAll ⟨root, ⟨opener, line, chosen, some others⟩ :: blocks⟩ nodes =
      ⟨root, ⟨opener, line, chosen, some (others ++ nodes)⟩ :: blocks⟩ := by
  induction nodes generalizing others with
  | nil => rw [List.append_nil]; rfl
  | cons n nodes ih =>
    have step := ih (others ++ [n])
    rwa [List.append_assoc] at step

/-- Whole blocks leave the open blocks as they are. -/
theorem addAll_forms {nodes : List Node} (forms : Forms rs nodes) (o : Outline) :
    o.addAll rs = .ok (o.pushAll nodes) := by
  induction forms generalizing o with
  | empty => rfl
  | text kind _ ih =>
    rw [addAll, kind]
    exact ih _
  | branch opens closes _ _ inner rest =>
    rw [List.cons_append, addAll, opens]
    refine (addAll_append (inner _)).trans ?_
    rw [enter, OpenBlock.start, pushAll_chosen, addAll, closes]
    exact rest _
  | divided opens divides closes _ _ _ inner other rest =>
    rw [List.append_assoc, List.cons_append, addAll, opens]
    refine (addAll_append (inner _)).trans ?_
    rw [enter, OpenBlock.start, pushAll_chosen, List.cons_append, addAll, divides]
    refine (addAll_append (other _)).trans ?_
    rw [pushAll_otherwise, addAll, closes]
    exact rest _
  | loop opens closes _ _ inner rest =>
    rw [List.cons_append, addAll, opens]
    refine (addAll_append (inner _)).trans ?_
    rw [enter, OpenBlock.start, pushAll_chosen, addAll, closes]
    exact rest _

theorem finish_pushAll (nodes : List Node) : (pushAll {} nodes).finish = .ok nodes := by
  rw [pushAll_root, List.nil_append]
  rfl

/-- Lines are added as they are read; a line that cannot be read stops the parser. -/
theorem addLines_ok_iff {n : Nat} {lines : List (List Char)} :
    addLines n o lines = .ok o' ↔ ∃ rs, Reads n lines rs ∧ o.addAll rs = .ok o' := by
  induction lines generalizing n o with
  | nil =>
    constructor
    · exact fun added => ⟨[], ⟨rfl, by simp⟩, added⟩
    · rintro ⟨rs, reads, added⟩
      obtain rfl := List.map_eq_nil_iff.mp reads.numbered
      exact added
  | cons line lines ih =>
    constructor
    · intro added
      rw [addLines] at added
      cases kind : kindOf n line with
      | error e =>
        rw [kind] at added
        cases added
      | ok k =>
        cases first : o.add n line k with
        | error e =>
          simp only [kind, first, bind, Except.bind, reduceCtorEq] at added
        | ok middle =>
          simp only [kind, first, bind, Except.bind] at added
          obtain ⟨rs, reads, following⟩ := ih.mp added
          refine ⟨⟨n, line, k⟩ :: rs, ⟨?_, ?_⟩, (addAll_cons first).trans following⟩
          · rw [List.map_cons, reads.numbered, List.zipIdx_cons]
          · exact List.forall_mem_cons.mpr ⟨kind, reads.kinds⟩
    · rintro ⟨rs, ⟨numbered, kinds⟩, added⟩
      rw [List.zipIdx_cons] at numbered
      obtain ⟨x, rs, rfl, same, following⟩ := List.map_eq_cons_iff.mp numbered
      obtain ⟨rfl, rfl⟩ := Prod.mk.inj same
      obtain ⟨readable, kinds⟩ := List.forall_mem_cons.mp kinds
      cases first : o.add x.number x.content x.kind with
      | error e =>
        simp only [addAll, first, bind, Except.bind, reduceCtorEq] at added
      | ok middle =>
        rw [addAll_cons first] at added
        simp only [addLines, readable, first, bind, Except.bind]
        exact ih.mpr ⟨rs, ⟨following, kinds⟩, added⟩

end Outline

theorem parse_eq (template : List Char) :
    parse template = (Outline.addLines 1 {} (Text.lines template)).bind Outline.finish := rfl

theorem parse_ok_iff {template : List Char} {nodes : List Node} :
    parse template = .ok nodes ↔
      ∃ rs, Reads 1 (Text.lines template) rs ∧ Forms rs nodes := by
  rw [parse_eq]
  constructor
  · intro parsed
    cases added : Outline.addLines 1 {} (Text.lines template) with
    | error e =>
      rw [added] at parsed
      cases parsed
    | ok o =>
      rw [added] at parsed
      obtain ⟨rs, reads, all⟩ := Outline.addLines_ok_iff.mp added
      have start : Outline.Holds {} [] := .root .empty
      exact ⟨rs, reads, (start.addAll all).finish parsed⟩
  · rintro ⟨rs, reads, forms⟩
    have added := Outline.addLines_ok_iff.mpr ⟨rs, reads, Outline.addAll_forms forms {}⟩
    rw [added]
    exact Outline.finish_pushAll nodes

end ImagePipeline.Template
