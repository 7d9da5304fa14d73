import ImagePipeline.Proofs.Template.Guards
import ImagePipeline.Proofs.Template.Rewriting

/-! Templates one behind the other. A template that renders leaves no block open, so that one
behind it is read as if it stood alone, further down: what it gives is added, and its faults are
moved down by the lines in front. -/
namespace ImagePipeline.Template

variable {k n : Nat} {c : Context}

/-! ### Reading further down -/

/-- Blocks that were opened and divided alike, the second `k` lines further down. What they hold
is left open. -/
structure OpenBlock.Below (k : Nat) (b b' : OpenBlock) : Prop where
  opener : b'.opener = b.opener
  line : b'.line = b.line + k
  divided : b'.otherwise.isSome = b.otherwise.isSome

/-- Outlines with the same open blocks, `k` lines further down. -/
def Outline.Below (k : Nat) (o o' : Outline) : Prop :=
  List.Forall₂ (OpenBlock.Below k) o.blocks o'.blocks

namespace OpenBlock.Below

variable {b b' : OpenBlock}

theorem push (below : b.Below k b') (node node' : Node) :
    (b.push node).Below k (b'.push node') := by
  obtain ⟨opener, line, chosen, otherwise⟩ := b
  obtain ⟨opener', line', chosen', otherwise'⟩ := b'
  obtain ⟨same, moved, divided⟩ := below
  dsimp only at same moved divided
  cases otherwise with
  | none =>
    obtain rfl := Option.isSome_eq_false_iff.mp divided |> Option.isNone_iff_eq_none.mp
    exact ⟨same, moved, rfl⟩
  | some nodes =>
    obtain ⟨nodes', rfl⟩ := Option.isSome_iff_exists.mp divided
    exact ⟨same, moved, rfl⟩

/-- Either both blocks can be divided or neither. -/
theorem divide (below : b.Below k b') :
    Option.Rel (OpenBlock.Below k) b.divide? b'.divide? := by
  obtain ⟨opener, line, chosen, otherwise⟩ := b
  obtain ⟨opener', line', chosen', otherwise'⟩ := b'
  obtain ⟨same, moved, divided⟩ := below
  dsimp only at same moved divided
  subst same
  cases opener' with
  | packages => exact .none
  | guard g =>
    cases otherwise with
    | none =>
      obtain rfl := Option.isSome_eq_false_iff.mp divided |> Option.isNone_iff_eq_none.mp
      exact .some ⟨rfl, moved, rfl⟩
    | some nodes =>
      obtain ⟨nodes', rfl⟩ := Option.isSome_iff_exists.mp divided
      exact .none

end OpenBlock.Below

namespace Outline.Below

variable {o o' : Outline}

theorem push (below : o.Below k o') (node node' : Node) :
    (o.push node).Below k (o'.push node') := by
  obtain ⟨root, blocks⟩ := o
  obtain ⟨root', blocks'⟩ := o'
  cases below with
  | nil => exact .nil
  | cons block outer => exact .cons (block.push node node') outer

theorem enter (below : o.Below k o') (opener : Opener) :
    (o.enter opener n).Below k (o'.enter opener (n + k)) :=
  .cons ⟨rfl, rfl, rfl⟩ below

/-- One line, `k` lines further down. -/
theorem add (below : o.Below k o') (line : List Char) (kind : LineKind) :
    Tracks k (Outline.Below k) (o.add n line kind) (o'.add (n + k) line kind) := by
  cases kind with
  | text => exact .ok (below.push _ _)
  | opening g => exact .ok (below.enter (.guard g))
  | repeating => exact .ok (below.enter .packages)
  | otherwise =>
    obtain ⟨root, blocks⟩ := o
    obtain ⟨root', blocks'⟩ := o'
    cases below with
    | nil => exact .fault (.strayElse n)
    | @cons b b' rest rest' block outer =>
      have divided := block.divide
      unfold Outline.add
      dsimp only
      generalize b.divide? = first at divided ⊢
      generalize b'.divide? = second at divided ⊢
      cases divided with
      | none => exact .fault (.strayElse n)
      | some inner => exact .ok (.cons inner outer)
  | closing =>
    obtain ⟨root, blocks⟩ := o
    obtain ⟨root', blocks'⟩ := o'
    cases below with
    | nil => exact .fault (.strayEnd n)
    | @cons b b' rest rest' block outer =>
      have around : Outline.Below k ⟨root, rest⟩ ⟨root', rest'⟩ := outer
      exact .ok (around.push b.close b'.close)

end Outline.Below

theorem kindOf_tracks (n k : Nat) (line : List Char) :
    Tracks k Eq (kindOf n line) (kindOf (n + k) line) := by
  unfold kindOf
  split
  · exact .ok rfl
  · split
    · exact .ok rfl
    · exact .fault (.unsupported n _)

/-- Lines further down, behind anything that leaves the same blocks open. -/
theorem Outline.Below.addLines {o o' : Outline} (below : o.Below k o') (lines : List (List Char)) :
    Tracks k (Outline.Below k) (Outline.addLines n o lines)
      (Outline.addLines (n + k) o' lines) := by
  induction lines generalizing n o o' with
  | nil => exact .ok below
  | cons line lines ih =>
    rw [Outline.addLines, Outline.addLines]
    refine (kindOf_tracks n k line).bind ?_
    rintro kind _ rfl
    refine (below.add line kind).bind fun p p' following => ?_
    rw [Nat.add_right_comm]
    exact ih following

theorem Outline.Below.finish {o o' : Outline} (below : o.Below k o') :
    Tracks k (fun _ _ => True) o.finish o'.finish := by
  obtain ⟨root, blocks⟩ := o
  obtain ⟨root', blocks'⟩ := o'
  cases below with
  | nil => exact .ok trivial
  | @cons b b' _ _ block _ =>
    have same : (Fault.unterminated b.line).later k = .unterminated b'.line :=
      congrArg Fault.unterminated block.line.symm
    unfold Outline.finish
    dsimp only
    rw [← same]
    exact .fault _

/-! ### Templates one behind the other -/

section Templates

variable {s t : List Char} {nodes others : List Node}

/-- A template that cannot be parsed behind one that can. -/
theorem parse_fault_behind {e : Fault} (whole : Text.Whole s) (parsed : parse s = .ok nodes)
    (failed : parse t = .error e) :
    parse (s ++ t) = .error (e.later (Text.lines s).length) := by
  obtain ⟨rs, reads, forms⟩ := parse_ok_iff.mp parsed
  have front := Outline.addLines_ok_iff.mpr ⟨rs, reads, Outline.addAll_forms forms {}⟩
  have closed : Outline.Below (Text.lines s).length {} (Outline.pushAll {} nodes) := by
    rw [Outline.pushAll_root]
    exact .nil
  have tracks : Tracks (Text.lines s).length (fun _ _ => True) (parse t)
      (Outline.addLines (1 + (Text.lines s).length) (Outline.pushAll {} nodes) (Text.lines t) >>=
        Outline.finish) :=
    (closed.addLines (Text.lines t)).bind fun _ _ below => below.finish
  rw [failed] at tracks
  rw [parse_eq, Text.lines_whole_append whole, Outline.addLines_append, front]
  exact tracks.of_fault

theorem Reads.later {lines : List (List Char)} {rs : List ReadLine} (reads : Reads n lines rs)
    (k : Nat) : Reads (n + k) lines (rs.map (ReadLine.later k)) := by
  obtain ⟨numbered, kinds⟩ := reads
  constructor
  · rw [Nat.add_comm n k, ← List.map_snd_add_zipIdx_eq_zipIdx, ← numbered, List.map_map,
      List.map_map]
    rfl
  · intro x member
    obtain ⟨y, before, rfl⟩ := List.mem_map.mp member
    exact kindOf_keeps y.content y.kind (kinds y before)

/-- A template that can be parsed behind another one: its nodes are added, further down. -/
theorem parse_behind (whole : Text.Whole s) (whole' : Text.Whole t)
    (parsed : parse s = .ok nodes) (parsed' : parse t = .ok others) :
    ∃ those, parse (s ++ t) = .ok (nodes ++ those) ∧
      NodesTrack (Text.lines s).length .same c c others those := by
  obtain ⟨rs, reads, forms⟩ := parse_ok_iff.mp parsed
  obtain ⟨rs', reads', forms'⟩ := parse_ok_iff.mp parsed'
  obtain ⟨those, moved, tracks⟩ := forms'.tracks (Text.lines s).length
    (Rewriting.map_same_string c.packages).symm fun x _ => x.agrees_same c
  have count : rs.length = (Text.lines s).length := by
    simpa using congrArg List.length reads.numbered
  have read : ReadText 1 s rs := ⟨whole, reads⟩
  have below : Reads (1 + rs.length) (Text.lines t) (rs'.map (ReadLine.later (Text.lines s).length)) :=
    by rw [count]; exact reads'.later _
  have behind := read.append ⟨whole', below⟩
  exact ⟨those, parse_ok_iff.mpr ⟨_, behind.reads, forms.append moved⟩, tracks⟩

/-- What is rendered of a template behind one that renders to `lines`. -/
theorem render_behind {t u : String} {lines : List (List Char)} (whole : Text.Whole t.toList)
    (whole' : Text.Whole u.toList) (parsed : parse t.toList = .ok nodes)
    (rendered : renderNodes c none nodes = .ok lines) (parsed' : parse u.toList = .ok others) :
    Tracks (Text.lines t.toList).length
      (fun more text => text = String.ofList (assemble (t ++ u).toList (lines ++ more)))
      (renderNodes c none others) (render (t ++ u) c) := by
  obtain ⟨those, both, tracks⟩ := parse_behind (c := c) whole whole' parsed parsed'
  rw [← String.toList_append] at both
  have further : Tracks _ _ (renderNodes c none others) (renderNodes c none those) := tracks none
  rw [render_of_parsed both, renderNodes_append, rendered]
  generalize renderNodes c none others = first at further ⊢
  generalize renderNodes c none those = second at further ⊢
  cases further with
  | fault e => exact .fault e
  | @ok more those same =>
    obtain rfl : those = more := same.trans (List.map_id more)
    exact .ok rfl

end Templates

/-- A text that is not empty and ends with a line feed consists of whole lines. -/
theorem assemble_eq_flatMap {template : List Char} {lines : List (List Char)}
    (ends : Text.endsWithLineFeed template = true) (given : Text.unlines lines ≠ []) :
    assemble template lines = lines.flatMap fun line => line ++ ['\n'] := by
  have inhabited : lines ≠ [] := by
    rintro rfl
    exact given rfl
  rw [← Text.unlines_concat inhabited]
  simp [assemble, ends, given]

theorem unlines_of_assemble {template : List Char} {lines : List (List Char)}
    (given : assemble template lines ≠ []) : Text.unlines lines ≠ [] := by
  intro nothing
  simp [assemble, nothing] at given

theorem unlines_append_ne_nil {lines more : List (List Char)} (given : Text.unlines lines ≠ []) :
    Text.unlines (lines ++ more) ≠ [] := by
  have inhabited : lines ≠ [] := by
    rintro rfl
    exact given rfl
  intro nothing
  have whole := Text.unlines_concat (List.append_ne_nil_of_left_ne_nil inhabited more)
  rw [nothing, List.flatMap_append, ← Text.unlines_concat inhabited] at whole
  have lengths := congrArg List.length whole
  simp only [List.length_append, List.length_nil, List.length_singleton] at lengths
  exact given (List.length_eq_zero_iff.mp (by omega))

theorem assemble_append {s t : List Char} {lines more : List (List Char)}
    (ends : Text.endsWithLineFeed s = true) (ends' : Text.endsWithLineFeed t = true)
    (given : assemble s lines ≠ []) (given' : assemble t more ≠ []) :
    assemble (s ++ t) (lines ++ more) = assemble s lines ++ assemble t more := by
  have both : Text.endsWithLineFeed (s ++ t) = true := by
    obtain ⟨rest, rfl⟩ := Text.endsWithLineFeed_iff.mp ends'
    exact Text.endsWithLineFeed_iff.mpr ⟨s ++ rest, by rw [List.append_assoc]⟩
  have front := unlines_of_assemble given
  rw [assemble_eq_flatMap both (unlines_append_ne_nil front), assemble_eq_flatMap ends front,
    assemble_eq_flatMap ends' (unlines_of_assemble given'), List.flatMap_append]

/-- Rendering is compositional. Of two templates of whole lines, the first of which renders, the
second renders behind the first as it does alone: texts that are not empty are put together, and
a fault is the same, further down by the lines of the first. -/
theorem render_append (c : Context) (t u text : String)
    (ends : Text.endsWithLineFeed t.toList = true) (ends' : Text.endsWithLineFeed u.toList = true)
    (rendered : render t c = .ok text) :
    (∀ more, render u c = .ok more → text ≠ "" → more ≠ "" →
      render (t ++ u) c = .ok (text ++ more)) ∧
    ∀ e, render u c = .error e →
      render (t ++ u) c = .error (e.later (Text.lines t.toList).length) := by
  obtain ⟨nodes, lines, parsed, given, rfl⟩ := of_render_ok rendered
  constructor
  · intro more rendered' inhabited inhabited'
    obtain ⟨others, further, parsed', given', rfl⟩ := of_render_ok rendered'
    have tracks := render_behind (.inr ends) (.inr ends') parsed given parsed'
    rw [given'] at tracks
    generalize result : render (t ++ u) c = both at tracks ⊢
    cases tracks with
    | ok same =>
      rw [same, String.toList_append, assemble_append ends ends', String.ofList_append]
      · rintro nothing
        exact inhabited (by rw [nothing, String.ofList_nil])
      · rintro nothing
        exact inhabited' (by rw [nothing, String.ofList_nil])
  · intro e failed
    cases parsed' : parse u.toList with
    | error e' =>
      rw [render_of_parse_error parsed', Except.error.injEq] at failed
      subst failed
      have behind := parse_fault_behind (.inr ends) parsed parsed'
      rw [← String.toList_append] at behind
      exact render_of_parse_error behind c
    | ok others =>
      have tracks := render_behind (.inr ends) (.inr ends') parsed given parsed'
      rw [render_of_parsed parsed'] at failed
      cases given' : renderNodes c none others with
      | ok further =>
        rw [given'] at failed
        cases failed
      | error e' =>
        rw [given'] at failed tracks
        cases failed
        exact tracks.of_fault

/-- A block of three lines. -/
def archTemplate : String :=
  "\x7b\x7b- if .Pinned \x7d\x7d\nARG ARCH=\x7b\x7b .Arch \x7d\x7d\n" ++
    "\x7b\x7b- end \x7d\x7d\n"

def archContext : Context where
  base := .alpine320
  values := [("Arch", "arm64")]
  flags := [("Pinned", true)]
  packages := []

theorem arch_rendered : render archTemplate archContext = .ok "ARG ARCH=arm64\n" := by
  decide +kernel

/-- A template that renders, one with an unknown name, and one with an open block. -/
theorem arch_append :
    render (archTemplate ++ "USER \x7b\x7b .Arch \x7d\x7d\n") archContext =
        .ok "ARG ARCH=arm64\nUSER arm64\n" ∧
      render (archTemplate ++ "\n\x7b\x7b .User \x7d\x7d\n") archContext =
        .error (.unknownVariable 5 "User") ∧
      render (archTemplate ++ "\x7b\x7b- if .Pinned \x7d\x7d\n") archContext =
        .error (.unterminated 4) := by
  have ends : Text.endsWithLineFeed archTemplate.toList = true := by decide +kernel
  refine ⟨?_, ?_, ?_⟩
  · exact (render_append archContext archTemplate "USER \x7b\x7b .Arch \x7d\x7d\n" _ ends
      (by decide +kernel) arch_rendered).1 "USER arm64\n" (by decide +kernel) (by decide +kernel)
      (by decide +kernel)
  · exact (render_append archContext archTemplate _ _ ends (by decide +kernel) arch_rendered).2
      (.unknownVariable 2 "User") (by decide +kernel)
  · exact (render_append archContext archTemplate _ _ ends (by decide +kernel) arch_rendered).2
      (.unterminated 1) (by decide +kernel)

end ImagePipeline.Template
