import ImagePipeline.Proofs.Template.Refinement

/-! The same lines rendered twice. The second rendering may find the lines further down and may
put in other texts, which are those of the first rewritten. It then gives the lines of the first,
rewritten in the same way, or the fault of the first, further down. -/
namespace ImagePipeline.Template

/-- The same fault, `k` lines further down. -/
def Fault.later (k : Nat) : Fault → Fault
  | unterminated n => unterminated (n + k)
  | strayEnd n => strayEnd (n + k)
  | strayElse n => strayElse (n + k)
  | unsupported n action => unsupported (n + k) action
  | unknownVariable n name => unknownVariable (n + k) name
  | unknownFlag n name => unknownFlag (n + k) name
  | dotOutsideRange n => dotOutsideRange (n + k)
  | unclosedAction n => unclosedAction (n + k)

@[simp] theorem Fault.later_zero (e : Fault) : e.later 0 = e := by cases e <;> rfl

section Results

variable {α α' β β' : Type} {k : Nat} {R : α → α' → Prop} {S : β → β' → Prop}

/-- Two results side by side: values that are related, or one fault, which the second has `k`
lines further down. -/
inductive Tracks (k : Nat) (R : α → α' → Prop) : Except Fault α → Except Fault α' → Prop where
  | ok {a : α} {a' : α'} : R a a' → Tracks k R (.ok a) (.ok a')
  | fault (e : Fault) : Tracks k R (.error e) (.error (e.later k))

theorem Tracks.bind {t : Except Fault α} {t' : Except Fault α'} {f : α → Except Fault β}
    {f' : α' → Except Fault β'} (first : Tracks k R t t')
    (next : ∀ a a', R a a' → Tracks k S (f a) (f' a')) : Tracks k S (t >>= f) (t' >>= f') := by
  cases first with
  | ok related => exact next _ _ related
  | fault e => exact .fault e

theorem Tracks.of_fault {t' : Except Fault α'} {e : Fault} (tracks : Tracks k R (.error e) t') :
    t' = .error (e.later k) := by
  cases tracks
  rfl

/-- Values that are computed from the first ones, and faults in the same lines. -/
theorem Tracks.eq_map {t : Except Fault α} {t' : Except Fault α'} {f : α → α'}
    (tracks : Tracks 0 (fun a a' => a' = f a) t t') : t' = t.map f := by
  cases tracks with
  | ok same => exact congrArg Except.ok same
  | fault e => exact congrArg Except.error e.later_zero

end Results

/-- A rewriting of texts, piece by piece, that keeps line feeds and makes nothing disappear. -/
structure Rewriting where
  apply : List Char → List Char
  append : ∀ a b, apply (a ++ b) = apply a ++ apply b
  feed : apply ['\n'] = ['\n']
  inhabited : ∀ s, apply s = [] → s = []

namespace Rewriting

/-- Every text as it is. -/
def same : Rewriting := ⟨id, fun _ _ => rfl, rfl, fun _ => id⟩

def string (r : Rewriting) (s : String) : String := String.ofList (r.apply s.toList)

@[simp] theorem toList_string (r : Rewriting) (s : String) :
    (r.string s).toList = r.apply s.toList := String.toList_ofList

@[simp] theorem same_string (s : String) : same.string s = s := String.ofList_toList

theorem map_same_string (texts : List String) : texts.map same.string = texts := by
  rw [funext same_string, List.map_id']

theorem empty (r : Rewriting) : r.apply [] = [] :=
  List.self_eq_append_right.mp (r.append [] [])

theorem unlines (r : Rewriting) (ls : List (List Char)) :
    Text.unlines (ls.map r.apply) = r.apply (Text.unlines ls) := by
  induction ls with
  | nil => exact r.empty.symm
  | cons line rest ih =>
    cases rest with
    | nil => simp [Text.unlines]
    | cons next rest =>
      simp only [Text.unlines, List.map_cons, List.intercalate_cons_cons] at ih ⊢
      rw [ih, r.append, r.append, r.feed]

theorem assemble (r : Rewriting) (template : List Char) (lines : List (List Char)) :
    assemble template (lines.map r.apply) = r.apply (assemble template lines) := by
  have emptied : (r.apply (Text.unlines lines)).isEmpty = (Text.unlines lines).isEmpty := by
    rw [Bool.eq_iff_iff, List.isEmpty_iff, List.isEmpty_iff]
    exact ⟨r.inhabited _, fun nothing => nothing ▸ r.empty⟩
  unfold Template.assemble
  dsimp only
  rw [r.unlines, emptied]
  split
  · rw [r.append, r.feed]
  · rfl

end Rewriting

variable {r : Rewriting} {c d : Context} {item : Option String} {k n : Nat}

/-! ### Pieces and guards -/

/-- The second context puts into this piece what the first does, rewritten. -/
def Piece.Agrees (r : Rewriting) (c d : Context) : Piece → Prop
  | .literal s => r.apply s = s
  | .action inner => ∀ name, fieldName? (actionText inner) = some name →
      d.value? (String.ofList name) = (c.value? (String.ofList name)).map r.string
  | .unclosed => True

def Guard.Agrees (c d : Context) : Guard → Prop
  | .flag name _ => d.flag? name = c.flag? name
  | .baseIn _ => d.base = c.base

theorem actionValue_tracks {inner : List Char} (agrees : (Piece.action inner).Agrees r c d) :
    Tracks k (fun a b => b = r.apply a) (actionValue c item n inner)
      (actionValue d (item.map r.string) (n + k) inner) := by
  unfold actionValue
  dsimp only
  split
  · cases item with
    | some package => exact .ok (r.toList_string package)
    | none => exact .fault (.dotOutsideRange n)
  · cases field : fieldName? (actionText inner) with
    | none => exact .fault (.unsupported n _)
    | some name =>
      dsimp only
      rw [agrees name field]
      cases c.value? (String.ofList name) with
      | some value => exact .ok (r.toList_string value)
      | none => exact .fault (.unknownVariable n _)

theorem piecesText_tracks {ps : List Piece} (agree : ∀ p ∈ ps, p.Agrees r c d) :
    Tracks k (fun a b => b = r.apply a) (piecesText c item n ps)
      (piecesText d (item.map r.string) (n + k) ps) := by
  induction ps with
  | nil => exact .ok r.empty.symm
  | cons p ps ih =>
    obtain ⟨here, others⟩ := List.forall_mem_cons.mp agree
    have first : Tracks k (fun a b => b = r.apply a) (pieceText c item n p)
        (pieceText d (item.map r.string) (n + k) p) := by
      cases p with
      | literal s => exact .ok (Eq.symm here)
      | action inner => exact actionValue_tracks here
      | unclosed => exact .fault (.unclosedAction n)
    refine first.bind ?_
    rintro front _ rfl
    refine (ih others).bind ?_
    rintro rest _ rfl
    exact .ok (r.append front rest).symm

theorem holds_tracks {guard : Guard} (agrees : guard.Agrees c d) :
    Tracks k Eq (holds c n guard) (holds d (n + k) guard) := by
  cases guard with
  | flag name negated =>
    unfold holds
    dsimp only
    rw [agrees]
    cases c.flag? name with
    | some on => exact .ok rfl
    | none => exact .fault (.unknownFlag n name)
  | baseIn names =>
    unfold holds
    dsimp only
    rw [agrees]
    exact .ok rfl

theorem Tracks.append {t u t' u' : Except Fault (List (List Char))}
    (front : Tracks k (fun a b => b = a.map r.apply) t t')
    (back : Tracks k (fun a b => b = a.map r.apply) u u') :
    Tracks k (fun a b => b = a.map r.apply) (do return (← t) ++ (← u))
      (do return (← t') ++ (← u')) := by
  refine front.bind ?_
  rintro lines _ rfl
  refine back.bind ?_
  rintro more _ rfl
  exact .ok (List.map_append (f := r.apply)).symm

theorem forPackages_tracks {f g : String → Except Fault (List (List Char))}
    (each : ∀ package, Tracks k (fun a b => b = a.map r.apply) (f package) (g (r.string package)))
    (ps : List String) :
    Tracks k (fun a b => b = a.map r.apply) (forPackages f ps) (forPackages g (ps.map r.string)) := by
  induction ps with
  | nil => exact .ok rfl
  | cons p ps ih => exact (each p).append ih

/-! ### Lines -/

def ReadLine.later (k : Nat) (x : ReadLine) : ReadLine := { x with number := x.number + k }

/-- The second context fills this line as the first does, with its texts rewritten. -/
def ReadLine.Agrees (r : Rewriting) (c d : Context) (x : ReadLine) : Prop :=
  match x.kind with
  | .text => ∀ p ∈ pieces false [] x.content, p.Agrees r c d
  | .opening guard => guard.Agrees c d
  | .repeating | .otherwise | .closing => True

theorem ReadLine.Agrees.text {x : ReadLine} (agrees : x.Agrees r c d) (kind : x.kind = .text) :
    ∀ p ∈ pieces false [] x.content, p.Agrees r c d := by
  rwa [ReadLine.Agrees, kind] at agrees

theorem ReadLine.Agrees.guard {x : ReadLine} {g : Guard} (agrees : x.Agrees r c d)
    (kind : x.kind = .opening g) : g.Agrees c d := by
  rwa [ReadLine.Agrees, kind] at agrees

/-- Every line is filled by one context as it is filled by it. -/
theorem ReadLine.agrees_same (x : ReadLine) (c : Context) : x.Agrees .same c c := by
  unfold ReadLine.Agrees
  split
  · intro p _
    cases p with
    | literal s => rfl
    | unclosed => trivial
    | action inner =>
      intro name _
      rw [funext Rewriting.same_string, Option.map_id']
  · rename_i guard _
    cases guard <;> rfl
  · trivial
  · trivial
  · trivial

/-- The nodes give in the second context what the others give in the first, rewritten, for
every package. -/
def NodesTrack (k : Nat) (r : Rewriting) (c d : Context) (nodes others : List Node) : Prop :=
  ∀ item, Tracks k (fun a b => b = a.map r.apply) (renderNodes c item nodes)
    (renderNodes d (item.map r.string) others)

namespace NodesTrack

variable {nodes others more those : List Node}

theorem nil : NodesTrack k r c d [] [] := fun _ => .ok rfl

theorem text {content : List Char} (agree : ∀ p ∈ pieces false [] content, p.Agrees r c d)
    (behind : NodesTrack k r c d nodes others) :
    NodesTrack k r c d (.text n content :: nodes) (.text (n + k) content :: others) := by
  intro item
  refine Tracks.append ?_ (behind item)
  rw [Node.render, Node.render]
  refine (piecesText_tracks agree).bind ?_
  rintro line _ rfl
  exact .ok rfl

theorem branch {guard : Guard} {chosen chosen' otherwise otherwise' : List Node}
    (agrees : guard.Agrees c d) (inside : NodesTrack k r c d chosen chosen')
    (beside : NodesTrack k r c d otherwise otherwise')
    (behind : NodesTrack k r c d nodes others) :
    NodesTrack k r c d (.branch n guard chosen otherwise :: nodes)
      (.branch (n + k) guard chosen' otherwise' :: others) := by
  intro item
  refine Tracks.append ?_ (behind item)
  rw [Node.render, Node.render]
  have decided : Tracks k Eq (holds c n guard) (holds d (n + k) guard) := holds_tracks agrees
  generalize holds c n guard = first at decided ⊢
  generalize holds d (n + k) guard = second at decided ⊢
  cases decided with
  | fault e => exact .fault e
  | @ok on _ same =>
    cases same
    cases on with
    | true => exact inside item
    | false => exact beside item

theorem loop {body body' : List Node} (packages : d.packages = c.packages.map r.string)
    (inside : NodesTrack k r c d body body') (behind : NodesTrack k r c d nodes others) :
    NodesTrack k r c d (.loop body :: nodes) (.loop body' :: others) := by
  intro item
  refine Tracks.append ?_ (behind item)
  rw [Node.render, Node.render, packages]
  exact forPackages_tracks (fun package => inside (some package)) c.packages

end NodesTrack

/-- Lines that form nodes do so further down too, and the nodes are tracked. The induction is on
the derivation of the blocks. -/
theorem Forms.tracks {rs : List ReadLine} {nodes : List Node} (forms : Forms rs nodes) (k : Nat)
    (packages : d.packages = c.packages.map r.string) (agree : ∀ x ∈ rs, x.Agrees r c d) :
    ∃ others, Forms (rs.map (ReadLine.later k)) others ∧ NodesTrack k r c d nodes others := by
  induction forms with
  | empty => exact ⟨[], .empty, .nil⟩
  | @text x rest nodes kind _ ih =>
    obtain ⟨here, behind⟩ := List.forall_mem_cons.mp agree
    obtain ⟨others, forms, tracks⟩ := ih behind
    exact ⟨_, .text (x := x.later k) kind forms, .text (here.text kind) tracks⟩
  | @branch x z guard inner rest chosen nodes opens closes _ _ inside behind =>
    obtain ⟨here, rest⟩ := List.forall_mem_cons.mp (List.cons_append ▸ agree)
    obtain ⟨within, rest⟩ := List.forall_mem_append.mp rest
    obtain ⟨chosen', forms, tracks⟩ := inside within
    obtain ⟨others, forms', tracks'⟩ := behind (List.forall_mem_cons.mp rest).2
    refine ⟨.branch (x.later k).number guard chosen' [] :: others, ?_,
      .branch (here.guard opens) tracks .nil tracks'⟩
    simpa using Forms.branch (x := x.later k) (z := z.later k) opens closes forms forms'
  | @divided x y z guard inner other rest chosen otherwise nodes opens divides closes _ _ _
      inside beside behind =>
    rw [List.append_assoc] at agree
    obtain ⟨here, rest⟩ := List.forall_mem_cons.mp (List.cons_append ▸ agree)
    obtain ⟨within, rest⟩ := List.forall_mem_append.mp rest
    obtain ⟨within', rest⟩ := List.forall_mem_append.mp (List.forall_mem_cons.mp rest).2
    obtain ⟨chosen', forms, tracks⟩ := inside within
    obtain ⟨otherwise', forms', tracks'⟩ := beside within'
    obtain ⟨others, forms'', tracks''⟩ := behind (List.forall_mem_cons.mp rest).2
    refine ⟨.branch (x.later k).number guard chosen' otherwise' :: others, ?_,
      .branch (here.guard opens) tracks tracks' tracks''⟩
    simpa using Forms.divided (x := x.later k) (y := y.later k) (z := z.later k) opens divides
      closes forms forms' forms''
  | @loop x z inner rest body nodes opens closes _ _ inside behind =>
    obtain ⟨here, rest⟩ := List.forall_mem_cons.mp (List.cons_append ▸ agree)
    obtain ⟨within, rest⟩ := List.forall_mem_append.mp rest
    obtain ⟨body', forms, tracks⟩ := inside within
    obtain ⟨others, forms', tracks'⟩ := behind (List.forall_mem_cons.mp rest).2
    refine ⟨.loop body' :: others, ?_, .loop packages tracks tracks'⟩
    simpa using Forms.loop (x := x.later k) (z := z.later k) opens closes forms forms'

/-- Lines form one list of nodes. -/
theorem Forms.unique {rs : List ReadLine} {nodes others : List Node} (forms : Forms rs nodes)
    (again : Forms rs others) : nodes = others := by
  have same := (Outline.addAll_forms forms {}).symm.trans (Outline.addAll_forms again {})
  rw [Outline.pushAll_root, Outline.pushAll_root, List.nil_append, List.nil_append] at same
  simpa using same

theorem render_of_parse_error {template : String} {e : Fault}
    (failed : parse template.toList = .error e) (c : Context) : render template c = .error e := by
  rw [render, renderChars, failed]
  rfl

theorem render_of_parsed {template : String} {nodes : List Node}
    (parsed : parse template.toList = .ok nodes) (c : Context) :
    render template c = (renderNodes c none nodes).map fun lines =>
      String.ofList (assemble template.toList lines) := by
  simp only [render, renderChars, parsed, bind, Except.bind]
  cases renderNodes c none nodes <;> rfl

/-- Where the second context fills every line as the first does, what is rendered is rewritten
as a whole, and a fault stays what it is. -/
theorem render_rewritten {template : String} (packages : d.packages = c.packages.map r.string)
    (agree : ∀ x : ReadLine, x.content ∈ Text.lines template.toList →
      kindOf x.number x.content = .ok x.kind → x.Agrees r c d) :
    render template d = (render template c).map r.string := by
  cases parsed : parse template.toList with
  | error e =>
    rw [render_of_parse_error parsed, render_of_parse_error parsed]
    rfl
  | ok nodes =>
    obtain ⟨rs, reads, forms⟩ := parse_ok_iff.mp parsed
    have inside : ∀ x ∈ rs, x.Agrees r c d := by
      intro x member
      have pair := List.mem_map_of_mem (f := fun x => (x.content, x.number)) member
      rw [reads.numbered] at pair
      exact agree x (List.fst_mem_of_mem_zipIdx pair) (reads.kinds x member)
    obtain ⟨others, forms', tracks⟩ := forms.tracks 0 packages inside
    have unmoved : rs.map (ReadLine.later 0) = rs := List.map_id rs
    obtain rfl := forms.unique (unmoved ▸ forms')
    have whole := (tracks none).eq_map
    rw [Option.map_none] at whole
    rw [render_of_parsed parsed, render_of_parsed parsed, whole]
    cases renderNodes c none nodes with
    | error e => rfl
    | ok lines => simp [Except.map, Rewriting.string, r.assemble]

end ImagePipeline.Template
