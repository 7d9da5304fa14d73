import ImagePipeline.Proofs.Template.Refinement
import ImagePipeline.Proofs.Template.Render
import ImagePipeline.Proofs.Text.Lines
import ImagePipeline.Proofs.Text.Pieces

/-! A guard selects lines. A block with a guard that is decided may be replaced by the lines of
the branch that the guard chooses, at any depth and in loops too: what is rendered stays the
same. -/
namespace ImagePipeline.Template

/-! ### Lines of known kinds -/

/-- A text of whole lines of these kinds. -/
structure Written (kinds : List LineKind) (s : List Char) : Prop where
  whole : Text.Whole s
  reads : List.Forall₂ (fun line kind => ∀ n, kindOf n line = .ok kind) (Text.lines s) kinds

namespace Written

variable {kinds more : List LineKind} {kind : LineKind} {s t : List Char}

theorem append (front : Written kinds s) (back : Written more t) :
    Written (kinds ++ more) (s ++ t) := by
  refine ⟨front.whole.append back.whole, ?_⟩
  rw [Text.lines_whole_append front.whole]
  exact List.rel_append front.reads back.reads

theorem single (line : Written [kind] s) :
    ∃ content, Text.lines s = [content] ∧ ∀ n, kindOf n content = .ok kind := by
  obtain ⟨content, rest, reads, behind, lines⟩ := List.forall₂_cons_right_iff.mp line.reads
  obtain rfl := List.forall₂_nil_right_iff.mp behind
  exact ⟨content, lines, reads⟩

/-- The kinds of the lines may be found with any number. -/
theorem of_kinds (whole : Text.Whole s)
    (reads : (Text.lines s).map (kindOf 0) = kinds.map .ok) : Written kinds s := by
  refine ⟨whole, ?_⟩
  have found : List.Forall₂ (fun line kind => kindOf 0 line = .ok kind) (Text.lines s) kinds := by
    rw [← List.forall₂_map_left_iff (f := kindOf 0) (R := fun result kind => result = .ok kind),
      reads, List.forall₂_map_left_iff, List.forall₂_same]
    exact fun _ _ => rfl
  exact found.imp fun line kind same n => kindOf_keeps line kind same

/-- The first line of a text, and the lines behind it. -/
theorem first (written : Written (kind :: more) s) :
    ∃ a b, s = a ++ b ∧ Written [kind] a ∧ Written more b := by
  obtain ⟨whole, reads⟩ := written
  rcases whole with rfl | ends
  · cases reads
  · have feed : '\n' ∈ s := by
      obtain ⟨front, rfl⟩ := Text.endsWithLineFeed_iff.mp ends
      simp
    obtain ⟨front, rest, rfl, feeds⟩ := List.eq_append_cons_of_mem feed
    obtain ⟨line, single⟩ := Text.lines_first feeds
    rw [Text.lines_append, single, List.singleton_append] at reads
    obtain ⟨first, others⟩ := List.forall₂_cons.mp reads
    have cut : front ++ '\n' :: rest = front ++ ['\n'] ++ rest := by simp
    have behind : Text.Whole rest := Text.Whole.behind (a := front ++ ['\n']) (.inr (cut ▸ ends))
    refine ⟨front ++ ['\n'], rest, cut, ⟨.inr ?_, ?_⟩, behind, others⟩
    · exact Text.endsWithLineFeed_iff.mpr ⟨front, rfl⟩
    · rw [single]
      exact .cons first .nil

theorem split (written : Written (kinds ++ more) s) :
    ∃ a b, s = a ++ b ∧ Written kinds a ∧ Written more b := by
  induction kinds generalizing s with
  | nil => exact ⟨[], s, rfl, ⟨.inl rfl, .nil⟩, written⟩
  | cons kind kinds ih =>
    obtain ⟨a, rest, rfl, first, others⟩ := first written
    obtain ⟨b, t, rfl, inner, behind⟩ := ih others
    exact ⟨a ++ b, t, by rw [List.append_assoc], first.append inner, behind⟩

end Written

/-- Lines of known kinds are read, whatever the number of the first. -/
theorem reads_of_kinds {lines : List (List Char)} {kinds : List LineKind}
    (known : List.Forall₂ (fun line kind => ∀ n, kindOf n line = .ok kind) lines kinds) (n : Nat) :
    ∃ rs, Reads n lines rs ∧ rs.map ReadLine.kind = kinds := by
  induction known generalizing n with
  | nil => exact ⟨[], ⟨rfl, by simp⟩, rfl⟩
  | @cons line kind _ _ readable _ ih =>
    obtain ⟨rs, ⟨numbered, reads⟩, same⟩ := ih (n + 1)
    refine ⟨⟨n, line, kind⟩ :: rs, ⟨?_, ?_⟩, ?_⟩
    · rw [List.map_cons, numbered, List.zipIdx_cons]
    · exact List.forall_mem_cons.mpr ⟨readable n, reads⟩
    · rw [List.map_cons, same]

theorem Reads.contents {lines : List (List Char)} {rs : List ReadLine} {n : Nat}
    (reads : Reads n lines rs) : rs.map ReadLine.content = lines := by
  have fronts := congrArg (List.map Prod.fst) reads.numbered
  rwa [List.map_map, List.zipIdx_map_fst] at fronts

theorem kinds_of_reads {lines : List (List Char)} {rs : List ReadLine} {n : Nat}
    (reads : Reads n lines rs) :
    List.Forall₂ (fun line kind => ∀ n, kindOf n line = .ok kind) lines
      (rs.map ReadLine.kind) := by
  rw [← reads.contents, List.forall₂_map_left_iff, List.forall₂_map_right_iff, List.forall₂_same]
  intro x member m
  exact kindOf_keeps x.content x.kind (reads.kinds x member)

/-- A text of whole lines that are read, the first of which has number `n`. -/
structure ReadText (n : Nat) (s : List Char) (rs : List ReadLine) : Prop where
  whole : Text.Whole s
  reads : Reads n (Text.lines s) rs

theorem ReadText.append {n : Nat} {s t : List Char} {rs others : List ReadLine}
    (front : ReadText n s rs) (back : ReadText (n + rs.length) t others) :
    ReadText n (s ++ t) (rs ++ others) := by
  have count : rs.length = (Text.lines s).length := by
    simpa using congrArg List.length front.reads.numbered
  refine ⟨front.whole.append back.whole, ?_, ?_⟩
  · rw [Text.lines_whole_append front.whole, List.map_append, front.reads.numbered,
      back.reads.numbered, List.zipIdx_append, count]
  · exact List.forall_mem_append.mpr ⟨front.reads.kinds, back.reads.kinds⟩

theorem Written.readText {kinds : List LineKind} {s : List Char} (written : Written kinds s)
    (n : Nat) : ∃ rs, ReadText n s rs ∧ rs.map ReadLine.kind = kinds := by
  obtain ⟨rs, reads, same⟩ := reads_of_kinds written.reads n
  exact ⟨rs, ⟨written.whole, reads⟩, same⟩

theorem Written.readLine {kind : LineKind} {s : List Char} (line : Written [kind] s) (n : Nat) :
    ∃ x : ReadLine, ReadText n s [x] ∧ x.kind = kind := by
  obtain ⟨rs, read, same⟩ := line.readText n
  obtain ⟨x, rfl, kind⟩ := List.map_eq_singleton_iff.mp same
  exact ⟨x, read, kind⟩

/-- A text of whole blocks. -/
def WholeBlocks (s : List Char) : Prop := ∃ kinds, Blocks kinds ∧ Written kinds s

theorem WholeBlocks.nil : WholeBlocks [] := ⟨[], .empty, .inl rfl, .nil⟩

/-- The lines of a text, the first of which has number `n`, form these nodes. -/
def TextForms (n : Nat) (s : List Char) (nodes : List Node) : Prop :=
  ∃ rs, ReadText n s rs ∧ Forms rs nodes

theorem WholeBlocks.forms {s : List Char} (blocks : WholeBlocks s) (n : Nat) :
    ∃ nodes, TextForms n s nodes := by
  obtain ⟨kinds, generated, written⟩ := blocks
  obtain ⟨rs, read, same⟩ := written.readText n
  obtain ⟨nodes, forms⟩ := Forms.of_generated generated same
  exact ⟨nodes, rs, read, forms⟩

namespace TextForms

variable {n m : Nat} {s : List Char} {nodes others : List Node}

theorem nil : TextForms n [] [] := ⟨[], ⟨.inl rfl, rfl, by simp⟩, .empty⟩

theorem addLines (forms : TextForms n s nodes) (o : Outline) :
    Outline.addLines n o (Text.lines s) = .ok (o.pushAll nodes) := by
  obtain ⟨rs, read, forms⟩ := forms
  exact Outline.addLines_ok_iff.mpr ⟨rs, read.reads, Outline.addAll_forms forms o⟩

/-- The same lines form nodes that give the same, whatever their numbers. -/
theorem refines {c : Context} (forms : TextForms n s nodes) (again : TextForms m s others) :
    Refines c nodes others := by
  obtain ⟨p, added, refined⟩ := (Outline.Refines.refl {}).addLines (c := c) (m := m) (forms.addLines {})
  cases (again.addLines {}).symm.trans added
  have roots := refined.root
  rwa [Outline.pushAll_root, Outline.pushAll_root] at roots

end TextForms

/-! ### Blocks with a guard -/

/-- A block with a guard as it is written, in whole lines: the line that opens it, the lines
behind that, the line of an `else` and the lines behind that if there is one, and the line that
closes it. -/
structure GuardedBlock where
  guard : Guard
  opening : List Char
  chosen : List Char
  otherwise : Option (List Char × List Char)
  closing : List Char
  opens : Written [.opening guard] opening
  inside : WholeBlocks chosen
  divides : ∀ part ∈ otherwise, Written [.otherwise] part.1 ∧ WholeBlocks part.2
  closes : Written [.closing] closing

namespace GuardedBlock

/-- The lines of the branch behind an `else`. -/
def other (b : GuardedBlock) : List Char := (b.otherwise.map Prod.snd).getD []

def text (b : GuardedBlock) : List Char :=
  b.opening ++ b.chosen ++ (b.otherwise.map fun part => part.1 ++ part.2).getD [] ++ b.closing

/-- The lines of the branch that a guard chooses, without those that mark the block. -/
def selected (b : GuardedBlock) (on : Bool) : List Char := if on then b.chosen else b.other

theorem other_blocks (b : GuardedBlock) : WholeBlocks b.other := by
  unfold other
  cases divided : b.otherwise with
  | none => exact .nil
  | some part => exact (b.divides part divided).2

theorem selected_blocks (b : GuardedBlock) (on : Bool) : WholeBlocks (b.selected on) := by
  cases on with
  | true => exact b.inside
  | false => exact b.other_blocks

theorem text_whole (b : GuardedBlock) : Text.Whole b.text := by
  have divided : Text.Whole ((b.otherwise.map fun part => part.1 ++ part.2).getD []) := by
    cases divided : b.otherwise with
    | none => exact .inl rfl
    | some part =>
      obtain ⟨line, _, _, behind⟩ := b.divides part divided
      exact line.whole.append behind.whole
  obtain ⟨_, _, inside⟩ := b.inside
  exact ((b.opens.whole.append inside.whole).append divided).append b.closes.whole

/-- The lines of a block form one node, whose branches are formed by the lines of its
branches. -/
theorem forms (b : GuardedBlock) (n : Nat) :
    ∃ line chosen otherwise m k, TextForms n b.text [.branch line b.guard chosen otherwise] ∧
      TextForms m b.chosen chosen ∧ TextForms k b.other otherwise := by
  obtain ⟨x, opening, opens⟩ := b.opens.readLine n
  obtain ⟨chosen, inner, inside, formed⟩ := b.inside.forms (n + [x].length)
  have front := opening.append inside
  cases divided : b.otherwise with
  | none =>
    obtain ⟨z, closing, closes⟩ := b.closes.readLine (n + ([x] ++ inner).length)
    have text : b.text = b.opening ++ b.chosen ++ b.closing := by simp [text, divided]
    have other : b.other = [] := by simp [other, divided]
    rw [text, other]
    exact ⟨x.number, chosen, [], _, 0,
      ⟨_, front.append closing, .branch opens closes formed .empty⟩, ⟨_, inside, formed⟩, .nil⟩
  | some part =>
    obtain ⟨dividing, following⟩ := b.divides part divided
    obtain ⟨y, middle, divides⟩ := dividing.readLine (n + ([x] ++ inner).length)
    have front := front.append middle
    obtain ⟨otherwise, behind, beside, formed'⟩ := following.forms (n + ([x] ++ inner ++ [y]).length)
    have front := front.append beside
    obtain ⟨z, closing, closes⟩ := b.closes.readLine (n + ([x] ++ inner ++ [y] ++ behind).length)
    have text : b.text = b.opening ++ b.chosen ++ part.1 ++ part.2 ++ b.closing := by
      simp [text, divided]
    have other : b.other = part.2 := by simp [other, divided]
    have whole : Forms ([x] ++ inner ++ [y] ++ behind ++ [z])
        [.branch x.number b.guard chosen otherwise] := by
      simpa using Forms.divided opens divides closes formed formed' .empty
    rw [text, other]
    exact ⟨x.number, chosen, otherwise, _, _, ⟨_, front.append closing, whole⟩,
      ⟨_, inside, formed⟩, _, beside, formed'⟩

end GuardedBlock

/-! ### The block that a line opens -/

/-- Kinds of lines that go on behind a line that opens a block with a guard: the branches of
the block, the line that closes it, and more. -/
inductive Closes : List LineKind → Prop where
  | branch {chosen rest : List LineKind} : Blocks chosen → Closes (chosen ++ .closing :: rest)
  | divided {chosen otherwise rest : List LineKind} : Blocks chosen → Blocks otherwise →
      Closes (chosen ++ .otherwise :: otherwise ++ .closing :: rest)

theorem Closes.append {kinds : List LineKind} (closes : Closes kinds) (more : List LineKind) :
    Closes (kinds ++ more) := by
  cases closes with
  | branch inner =>
    rw [List.append_assoc, List.cons_append]
    exact .branch inner
  | divided inner other =>
    rw [List.append_assoc, List.cons_append]
    exact .divided inner other

/-- In whole blocks every line that opens a block with a guard is followed by the rest of it,
at whatever depth it stands. -/
theorem Blocks.opened {kinds : List LineKind} (blocks : Blocks kinds) :
    ∀ {before after : List LineKind} {guard : Guard},
      kinds = before ++ .opening guard :: after → Closes after := by
  induction blocks with
  | empty =>
    intro before after guard same
    simp at same
  | @text rest _ behind =>
    intro before after guard same
    have split : [] ++ LineKind.text :: rest = before ++ .opening guard :: after := same
    rcases Text.append_cons_eq_split (by simp) split with ⟨t, nothing, -⟩ | ⟨t, rfl, -⟩
    · simp at nothing
    · exact behind rfl
  | @branch g chosen rest inner _ inside behind =>
    intro before after guard same
    cases before with
    | nil =>
      obtain ⟨-, rfl⟩ := List.cons.inj same
      exact .branch inner
    | cons x before =>
      obtain ⟨-, same⟩ := List.cons.inj same
      rcases Text.append_cons_eq_split (by simp) same with ⟨t, rfl, rfl⟩ | ⟨t, rfl, -⟩
      · exact (inside rfl).append _
      · exact behind rfl
  | @divided g chosen otherwise rest inner other _ inside beside behind =>
    intro before after guard same
    cases before with
    | nil =>
      obtain ⟨-, rfl⟩ := List.cons.inj same
      exact .divided inner other
    | cons x before =>
      obtain ⟨-, same⟩ := List.cons.inj same
      rcases Text.append_cons_eq_split (by simp) same with ⟨t, front, rfl⟩ | ⟨t, rfl, -⟩
      · rcases Text.append_cons_eq_split (by simp) front with ⟨u, rfl, rfl⟩ | ⟨u, rfl, -⟩
        · exact ((inside rfl).append _).append _
        · exact (beside rfl).append _
      · exact behind rfl
  | @loop body rest _ _ inside behind =>
    intro before after guard same
    have split : ([.repeating] ++ body) ++ LineKind.closing :: rest =
        before ++ .opening guard :: after := same
    rcases Text.append_cons_eq_split (by simp) split with ⟨t, front, rfl⟩ | ⟨t, rfl, -⟩
    · have split : [] ++ LineKind.repeating :: body = before ++ .opening guard :: t := front
      rcases Text.append_cons_eq_split (by simp) split with ⟨u, nothing, -⟩ | ⟨u, rfl, -⟩
      · simp at nothing
      · exact (inside rfl).append _
    · exact behind rfl

theorem Reads.split {lines more : List (List Char)} {rs : List ReadLine} {n : Nat}
    (reads : Reads n (lines ++ more) rs) :
    ∃ front back, rs = front ++ back ∧ Reads n lines front ∧
      Reads (n + lines.length) more back := by
  obtain ⟨numbered, kinds⟩ := reads
  rw [List.zipIdx_append] at numbered
  obtain ⟨front, back, rfl, first, second⟩ := List.map_eq_append_iff.mp numbered
  obtain ⟨before, behind⟩ := List.forall_mem_append.mp kinds
  exact ⟨front, back, rfl, ⟨first, before⟩, ⟨second, behind⟩⟩

/-- The lines behind one that opens a block, cut at the end of the block. -/
theorem Closes.block {kinds : List LineKind} {guard : Guard} {line rest : List Char}
    (closes : Closes kinds) (opens : Written [.opening guard] line) (written : Written kinds rest) :
    ∃ b : GuardedBlock, b.guard = guard ∧ b.opening = line ∧
      ∃ after, line ++ rest = b.text ++ after := by
  cases closes with
  | branch inner =>
    obtain ⟨chosen, rest, rfl, inside, rest'⟩ := written.split
    obtain ⟨closing, after, rfl, ends, -⟩ := rest'.first
    let b : GuardedBlock := {
      guard, opening := line, chosen, otherwise := none, closing, opens
      inside := ⟨_, inner, inside⟩, divides := by simp, closes := ends }
    exact ⟨b, rfl, rfl, after, by simp [b, GuardedBlock.text]⟩
  | divided inner other =>
    obtain ⟨front, rest, rfl, front', rest'⟩ := written.split
    obtain ⟨closing, after, rfl, ends, -⟩ := rest'.first
    obtain ⟨chosen, behind, rfl, inside, behind'⟩ := front'.split
    obtain ⟨dividing, otherwise, rfl, divides, beside⟩ := behind'.first
    let b : GuardedBlock := {
      guard, opening := line, chosen, otherwise := some (dividing, otherwise), closing, opens
      inside := ⟨_, inner, inside⟩
      divides := by simpa using ⟨divides, _, other, beside⟩
      closes := ends }
    exact ⟨b, rfl, rfl, after, by simp [b, GuardedBlock.text]⟩

theorem Written.kinds_unique {kinds others : List LineKind} {s : List Char}
    (written : Written kinds s) (again : Written others s) : kinds = others := by
  refine List.right_unique_forall₂' ?_ written.reads again.reads
  intro line kind other first second
  exact Except.ok.inj ((first 0).symm.trans (second 0))

/-- A line that opens a block with a guard, in a template that can be parsed, is the first line
of such a block. -/
theorem opened_block {before line rest : List Char} {nodes : List Node} {guard : Guard}
    (parsed : parse (before ++ line ++ rest) = .ok nodes) (front : Text.Whole before)
    (opens : Written [.opening guard] line) (whole : Text.Whole rest) :
    ∃ b : GuardedBlock, b.guard = guard ∧ b.opening = line ∧
      ∃ after, line ++ rest = b.text ++ after := by
  obtain ⟨rs, reads, forms⟩ := parse_ok_iff.mp parsed
  rw [Text.lines_whole_append (front.append opens.whole), Text.lines_whole_append front,
    List.append_assoc] at reads
  obtain ⟨earlier, later, rfl, -, reads⟩ := reads.split
  obtain ⟨here, behind, rfl, first, reads⟩ := reads.split
  have kind : here.map ReadLine.kind = [.opening guard] :=
    Written.kinds_unique ⟨opens.whole, kinds_of_reads first⟩ opens
  have position : (earlier ++ (here ++ behind)).map ReadLine.kind =
      earlier.map ReadLine.kind ++ .opening guard :: behind.map ReadLine.kind := by
    rw [List.map_append, List.map_append, kind]
    rfl
  have closes := forms.generated.opened position
  exact closes.block opens ⟨whole, kinds_of_reads reads⟩

/-! ### Leaving out what a guard rejects -/

section Selection

variable {c : Context} {n : Nat}

/-- The lines of the branch that a guard chooses leave an outline that goes on as the one
behind the whole block does. -/
theorem GuardedBlock.selected_refines (b : GuardedBlock) {on : Bool} {o p : Outline} {m : Nat}
    (decided : holds c n b.guard = .ok on)
    (added : Outline.addLines m o (Text.lines b.text) = .ok p) :
    ∃ p', Outline.addLines m o (Text.lines (b.selected on)) = .ok p' ∧ p.Refines c p' := by
  obtain ⟨line, chosen, otherwise, _, _, forms, inside, beside⟩ := b.forms m
  obtain ⟨nodes, again⟩ := (b.selected_blocks on).forms m
  have same : Template.Refines c (if on then chosen else otherwise) nodes := by
    cases on with
    | true => exact inside.refines again
    | false => exact beside.refines again
  cases (forms.addLines o).symm.trans added
  exact ⟨_, again.addLines o, (Outline.Refines.refl o).pushAll (.of_decided decided same)⟩

/-- A block whose guard is decided may be replaced by the branch that the guard chooses. -/
theorem parse_selected {before after : List Char} {nodes : List Node} {on : Bool}
    (b : GuardedBlock) (parsed : parse (before ++ b.text ++ after) = .ok nodes)
    (front : Text.Whole before) (decided : holds c n b.guard = .ok on) :
    ∃ others, parse (before ++ b.selected on ++ after) = .ok others ∧ Refines c nodes others := by
  obtain ⟨_, _, written⟩ := b.selected_blocks on
  rw [parse_eq, Text.lines_whole_append (front.append b.text_whole),
    Text.lines_whole_append front] at parsed
  rw [parse_eq, Text.lines_whole_append (front.append written.whole),
    Text.lines_whole_append front]
  simp only [Outline.addLines_append] at parsed ⊢
  obtain ⟨last, parsed, closed⟩ := result_of_bind parsed
  obtain ⟨middle, parsed, behind⟩ := result_of_bind parsed
  obtain ⟨first, start, block⟩ := result_of_bind parsed
  obtain ⟨middle', selected, refined⟩ := b.selected_refines decided block
  -- fewer lines stand in front of what follows, so that its lines have other numbers
  obtain ⟨last', behind', refined⟩ := refined.addLines
    (m := 1 + (Text.lines before ++ Text.lines (b.selected on)).length) behind
  obtain ⟨others, closed', refined⟩ := refined.finish closed
  refine ⟨others, ?_, refined⟩
  rw [start]
  simp only [bind, Except.bind, selected, behind']
  exact closed'

/-- What a template that renders consists of. -/
theorem of_render_ok {template text : String} (rendered : render template c = .ok text) :
    ∃ nodes lines, parse template.toList = .ok nodes ∧ renderNodes c none nodes = .ok lines ∧
      text = String.ofList (assemble template.toList lines) := by
  obtain ⟨nodes, parsed, chars⟩ := result_of_bind (renderChars_of_render rendered)
  obtain ⟨lines, given, chars⟩ := result_of_bind chars
  have same : assemble template.toList lines = text.toList := Except.ok.inj chars
  exact ⟨nodes, lines, parsed, given, by rw [same, String.ofList_toList]⟩

/-- Lines are put together in the same way for two templates of whole lines: one without any
line renders to nothing. -/
theorem assemble_whole {template kept : List Char} {nodes : List Node} {lines : List (List Char)}
    (ends : Text.endsWithLineFeed template = true) (whole : Text.Whole kept)
    (parsed : parse kept = .ok nodes) (rendered : renderNodes c none nodes = .ok lines) :
    assemble kept lines = assemble template lines := by
  rcases whole with rfl | ends'
  · cases parsed
    cases rendered
    rw [assemble, assemble, ends]
    rfl
  · rw [assemble, assemble, ends, ends']

end Selection

/-- A guard selects lines. In a template that ends with a line feed and renders, every line that
opens a block with a guard is the first of such a block, at whatever depth it stands; and where
the guard of a block is decided, the lines that mark the block and those of the branch that the
guard rejects may be deleted: what is rendered stays the same. -/
theorem guards_select_lines (c : Context) (template text : String)
    (ends : Text.endsWithLineFeed template.toList = true)
    (rendered : render template c = .ok text) :
    (∀ before line rest guard, template.toList = before ++ line ++ rest → Text.Whole before →
      Written [.opening guard] line → ∃ b : GuardedBlock, b.guard = guard ∧ b.opening = line ∧
        ∃ after, template.toList = before ++ b.text ++ after) ∧
      ∀ before after (b : GuardedBlock) n on, template.toList = before ++ b.text ++ after →
        Text.Whole before → holds c n b.guard = .ok on →
          render (String.ofList (before ++ b.selected on ++ after)) c = .ok text := by
  obtain ⟨nodes, lines, parsed, given, rfl⟩ := of_render_ok rendered
  constructor
  · intro before line rest guard cut front opens
    rw [cut] at parsed ends
    obtain ⟨b, same, first, after, behind⟩ :=
      opened_block parsed front opens (Text.Whole.behind (.inr ends))
    exact ⟨b, same, first, after, by rw [cut, List.append_assoc, behind, List.append_assoc]⟩
  · intro before after b n on cut front decided
    obtain ⟨_, _, written⟩ := b.selected_blocks on
    have behind : Text.Whole after := Text.Whole.behind (.inr (cut ▸ ends))
    have whole := (front.append written.whole).append behind
    obtain ⟨others, parsed', refined⟩ := parse_selected b (cut ▸ parsed) front decided
    have same := refined none lines given
    rw [← assemble_whole ends whole parsed' same]
    rw [← String.toList_ofList (l := before ++ b.selected on ++ after)] at parsed'
    rw [render_ok parsed' same, String.toList_ofList]

/-- A choice between two commands, as it stands inside of a loop over the packages. -/
def cachedInstall : GuardedBlock where
  guard := .flag "CacheLayers" false
  opening := "\x7b\x7b- if .CacheLayers \x7d\x7d\n".toList
  chosen := "RUN apk add \x7b\x7b . \x7d\x7d\n".toList
  otherwise := some ("\x7b\x7b- else \x7d\x7d\n".toList,
    "RUN apk add --no-cache \x7b\x7b . \x7d\x7d\n".toList)
  closing := "\x7b\x7b- end \x7d\x7d\n".toList
  opens := .of_kinds (.inr (by decide +kernel)) (by decide +kernel)
  inside := ⟨[.text], .text .empty, .of_kinds (.inr (by decide +kernel)) (by decide +kernel)⟩
  divides := by
    rintro part ⟨rfl⟩
    exact ⟨.of_kinds (.inr (by decide +kernel)) (by decide +kernel), [.text], .text .empty,
      .of_kinds (.inr (by decide +kernel)) (by decide +kernel)⟩
  closes := .of_kinds (.inr (by decide +kernel)) (by decide +kernel)

def packageLoop : List Char := "\x7b\x7b- range .AdditionalPackages \x7d\x7d\n".toList

def installTemplate : String :=
  String.ofList (packageLoop ++ cachedInstall.text ++ cachedInstall.closing)

def installContext : Context where
  base := .alpine320
  values := []
  flags := [("CacheLayers", false)]
  packages := ["curl", "git"]

theorem install_selects_lines :
    render installTemplate installContext =
      .ok "RUN apk add --no-cache curl\nRUN apk add --no-cache git\n" ∧
    render (String.ofList (packageLoop ++ cachedInstall.selected false ++ cachedInstall.closing))
        installContext = render installTemplate installContext := by
  have same : installTemplate.toList = packageLoop ++ cachedInstall.text ++ cachedInstall.closing :=
    String.toList_ofList
  have ends : Text.endsWithLineFeed installTemplate.toList = true := by
    rw [same]
    decide +kernel
  have rendered : render installTemplate installContext =
      .ok "RUN apk add --no-cache curl\nRUN apk add --no-cache git\n" := by
    rw [render, same]
    decide +kernel
  refine ⟨rendered, ?_⟩
  rw [rendered]
  exact (guards_select_lines installContext installTemplate _ ends rendered).2 packageLoop
    cachedInstall.closing cachedInstall 0 false same (.inr (by decide +kernel))
    (by decide +kernel)

end ImagePipeline.Template
