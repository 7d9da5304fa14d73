import ImagePipeline.Proofs.Template.Refinement
import ImagePipeline.Proofs.Text.Lines

/-! Where parsing stops. A template without a tree is refused at the first line that no template
with a tree can have behind the lines in front of it; if there is no such line, some block is
never closed, and the innermost one is named. -/
namespace ImagePipeline.Template

variable {n : Nat} {o o' : Outline} {f : Fault} {ls : List (List Char)}

/-! ### Blocks that are left open -/

def LineKind.opens : LineKind → Bool
  | .opening _ | .repeating => true
  | .text | .otherwise | .closing => false

theorem Opener.kind_opens (opener : Opener) : opener.kind.opens = true := by
  cases opener <;> rfl

/-- How many blocks lines of these kinds leave open. -/
def openBlocks (kinds : List LineKind) : Nat :=
  kinds.countP LineKind.opens - kinds.count .closing

/-- Lines that leave a block open which line `l` opens, and none inside of it: there are whole
blocks behind that line, or on both sides of the `else` of the block. -/
inductive OpenedLast : List ReadLine → Nat → Prop where
  | chosen {before inside : List ReadLine} {x : ReadLine} : x.kind.opens = true →
      Blocks (inside.map ReadLine.kind) → OpenedLast (before ++ x :: inside) x.number
  | otherwise {before inside other : List ReadLine} {x y : ReadLine} {guard : Guard} :
      x.kind = .opening guard → y.kind = .otherwise → Blocks (inside.map ReadLine.kind) →
      Blocks (other.map ReadLine.kind) →
      OpenedLast (before ++ x :: inside ++ y :: other) x.number

theorem Blocks.balanced {kinds : List LineKind} (blocks : Blocks kinds) :
    kinds.countP LineKind.opens = kinds.count .closing := by
  induction blocks with
  | empty => rfl
  | text _ ih => simpa [LineKind.opens] using ih
  | branch _ _ inside behind | loop _ _ inside behind =>
    simp [List.countP_cons, LineKind.opens, inside, behind]
    omega
  | divided _ _ _ inside beside behind =>
    simp [List.countP_cons, LineKind.opens, inside, beside, behind]
    omega

theorem Part.unbalanced {rs : List ReadLine} {b : OpenBlock} (part : Part rs b) :
    (rs.map ReadLine.kind).countP LineKind.opens = (rs.map ReadLine.kind).count .closing + 1 := by
  cases part with
  | chosen opens inner =>
    rename_i opener _ _
    have balanced := inner.generated.balanced
    cases opener <;> simp [List.countP_cons, opens, Opener.kind, LineKind.opens, balanced]
  | otherwise opens divides inner other =>
    have balanced := inner.generated.balanced
    have balanced' := other.generated.balanced
    simp [List.countP_cons, opens, divides, LineKind.opens, balanced, balanced']

theorem Stacked.openBlocks {rs : List ReadLine} {root : List Node} {blocks : List OpenBlock}
    (stacked : Stacked rs root blocks) :
    (rs.map ReadLine.kind).countP LineKind.opens =
      (rs.map ReadLine.kind).count .closing + blocks.length := by
  induction stacked with
  | root forms => exact forms.generated.balanced
  | inside _ part ih =>
    have inner := part.unbalanced
    simp only [List.map_append, List.countP_append, List.count_append, List.length_cons]
    omega

theorem Part.openedLast {rs before : List ReadLine} {b : OpenBlock} (part : Part rs b) :
    OpenedLast (before ++ rs) b.line := by
  cases part with
  | chosen opens inner =>
    refine .chosen ?_ inner.generated
    rw [opens, Opener.kind_opens]
  | otherwise opens divides inner other =>
    rw [← List.append_assoc]
    exact .otherwise opens divides inner.generated other.generated

/-! ### Lines that a template can start with -/

/-- Lines of a template that has a tree. -/
def Accepted (ls : List (List Char)) : Prop :=
  ∃ t nodes, Text.lines t = ls ∧ parse t = .ok nodes

/-- Lines that a template with a tree can start with. -/
def Viable (ls : List (List Char)) : Prop :=
  ∃ t nodes, ls <+: Text.lines t ∧ parse t = .ok nodes

/-- A line that closes a block. -/
structure ClosingLine (line : List Char) : Prop where
  unfed : '\n' ∉ line
  kind : ∀ n, kindOf n line = .ok .closing

def endLine : List Char := "\x7b\x7b end \x7d\x7d".toList

theorem endLine_closes : ClosingLine endLine := by
  have kind : kindOf 0 endLine = .ok .closing := by decide +kernel
  exact ⟨by decide +kernel, fun n => kindOf_keeps endLine _ kind⟩

theorem Accepted.viable {more : List (List Char)} (accepted : Accepted (ls ++ more)) :
    Viable ls := by
  obtain ⟨t, nodes, same, parsed⟩ := accepted
  exact ⟨t, nodes, ⟨more, same.symm⟩, parsed⟩

namespace Outline

theorem addLines_cons {line : List Char} {kind : LineKind} (readable : kindOf n line = .ok kind)
    (added : o.add n line kind = .ok o') :
    addLines n o (line :: ls) = addLines (n + 1) o' ls := by
  rw [addLines, readable]
  simp only [added, bind, Except.bind]

/-- A line for each open block closes all of them. -/
theorem addLines_closing {ends : List (List Char)} (o : Outline)
    (count : ends.length = o.blocks.length) (closing : ∀ line ∈ ends, ClosingLine line) :
    ∃ o', addLines n o ends = .ok o' ∧ o'.blocks = [] := by
  induction ends generalizing n o with
  | nil => exact ⟨o, rfl, List.length_eq_zero_iff.mp count.symm⟩
  | cons line ends ih =>
    obtain ⟨first, others⟩ := List.forall_mem_cons.mp closing
    obtain ⟨root, blocks⟩ := o
    cases blocks with
    | nil => cases count
    | cons b blocks =>
      have added : Outline.add ⟨root, b :: blocks⟩ n line .closing =
          .ok (Outline.push ⟨root, blocks⟩ b.close) := rfl
      have fewer : ends.length = (Outline.push ⟨root, blocks⟩ b.close).blocks.length := by
        cases blocks <;> exact Nat.succ.inj count
      rw [addLines_cons (first.kind n) added]
      exact ih _ fewer others

theorem addLines_of_viable (viable : Viable ls) : ∃ o, addLines 1 {} ls = .ok o := by
  obtain ⟨t, nodes, ⟨more, same⟩, parsed⟩ := viable
  rw [parse_eq, ← same, addLines_append] at parsed
  obtain ⟨whole, added, -⟩ := result_of_bind parsed
  obtain ⟨o, first, -⟩ := result_of_bind added
  exact ⟨o, first⟩

/-- Lines that can be added are those of a template once every block is closed. -/
theorem accepted_of_addLines {ends : List (List Char)} (feeds : ∀ line ∈ ls, '\n' ∉ line)
    (added : addLines 1 {} ls = .ok o) (count : ends.length = o.blocks.length)
    (closing : ∀ line ∈ ends, ClosingLine line) : Accepted (ls ++ ends) := by
  obtain ⟨⟨root, blocks⟩, closed, rfl⟩ := addLines_closing (n := 1 + ls.length) o count closing
  have lines := Text.lines_carriages (List.forall_mem_append.mpr
    ⟨feeds, fun line member => (closing line member).unfed⟩)
  refine ⟨_, root, lines, ?_⟩
  rw [parse_eq, lines, addLines_append, added]
  exact congrArg (· >>= finish) closed

theorem viable_of_addLines (feeds : ∀ line ∈ ls, '\n' ∉ line)
    (added : addLines 1 {} ls = .ok o) : Viable ls := by
  have accepted : Accepted (ls ++ List.replicate o.blocks.length endLine) := by
    refine accepted_of_addLines feeds added List.length_replicate fun line member => ?_
    rw [List.eq_of_mem_replicate member]
    exact endLine_closes
  exact accepted.viable

end Outline

/-! ### Faults and their lines -/

/-- Faults of one line. -/
def Fault.Stops (f : Fault) (n : Nat) : Prop :=
  f = .strayEnd n ∨ f = .strayElse n ∨ ∃ action, f = .unsupported n action

theorem kindOf_error {line : List Char} (failed : kindOf n line = .error f) : f.Stops n := by
  unfold kindOf at failed
  split at failed
  · cases failed
  · split at failed
    · cases failed
    · cases failed
      exact .inr (.inr ⟨_, rfl⟩)

namespace Outline

theorem add_error {line : List Char} {kind : LineKind} (failed : o.add n line kind = .error f) :
    f.Stops n := by
  obtain ⟨root, blocks⟩ := o
  cases kind with
  | text | opening | repeating => cases failed
  | otherwise =>
    cases blocks with
    | nil =>
      cases failed
      exact .inr (.inl rfl)
    | cons b blocks =>
      cases divides : b.divide? with
      | none =>
        simp only [add, divides, Except.error.injEq] at failed
        exact .inr (.inl failed.symm)
      | some divided => simp only [add, divides, reduceCtorEq] at failed
  | closing =>
    cases blocks with
    | nil =>
      cases failed
      exact .inl rfl
    | cons b blocks => cases failed

/-- Lines are added up to the one with a fault. -/
theorem addLines_error (failed : addLines n o ls = .error f) :
    ∃ i, i < ls.length ∧ f.Stops (n + i) ∧ (∃ o', addLines n o (ls.take i) = .ok o') ∧
      addLines n o (ls.take (i + 1)) = .error f := by
  induction ls generalizing n o with
  | nil => cases failed
  | cons line ls ih =>
    rw [addLines] at failed
    cases readable : kindOf n line with
    | error e =>
      rw [readable] at failed
      cases failed
      refine ⟨0, Nat.zero_lt_succ _, kindOf_error readable, ⟨o, rfl⟩, ?_⟩
      rw [List.take_succ_cons, addLines, readable]
      rfl
    | ok kind =>
      cases added : o.add n line kind with
      | error e =>
        simp only [readable, added, bind, Except.bind, Except.error.injEq] at failed
        subst failed
        refine ⟨0, Nat.zero_lt_succ _, add_error added, ⟨o, rfl⟩, ?_⟩
        rw [List.take_succ_cons, addLines, readable]
        simp only [added, bind, Except.bind]
      | ok middle =>
        simp only [readable, added, bind, Except.bind] at failed
        obtain ⟨i, inside, stops, ⟨o', before⟩, here⟩ := ih failed
        refine ⟨i + 1, Nat.succ_lt_succ inside, ?_, ⟨o', ?_⟩, ?_⟩
        · rwa [Nat.add_right_comm] at stops
        · rw [List.take_succ_cons, addLines_cons readable added, before]
        · rw [List.take_succ_cons, addLines_cons readable added, here]

theorem finish_error (failed : o.finish = .error f) :
    ∃ b blocks, o.blocks = b :: blocks ∧ f = .unterminated b.line := by
  obtain ⟨root, blocks⟩ := o
  cases blocks with
  | nil => cases failed
  | cons b blocks =>
    cases failed
    exact ⟨b, blocks, rfl, rfl⟩

end Outline

/-- With the first `i` of these lines a template is accepted once every open block is closed, and
with one line more no template is. -/
structure FirstImpossible (ls : List (List Char)) (i : Nat) : Prop where
  there : i < ls.length
  before : ∃ rs, Reads 1 (ls.take i) rs ∧ ∀ ends, ends.length = openBlocks (rs.map ReadLine.kind) →
    (∀ line ∈ ends, ClosingLine line) → Accepted (ls.take i ++ ends)
  impossible : ¬ Viable (ls.take (i + 1))

/-- All of these lines can be read, a template can start with any number of them, and line `l`
opens the innermost block that is open behind them. -/
structure LeftOpen (ls : List (List Char)) (l : Nat) : Prop where
  last : ∃ rs, Reads 1 ls rs ∧ OpenedLast rs l
  possible : ∀ k, Viable (ls.take k)

/-- What has been added leaves as many blocks open as its lines do. -/
theorem Outline.reads_of_addLines (added : addLines 1 {} ls = .ok o) :
    ∃ rs, Reads 1 ls rs ∧ Stacked rs o.root o.blocks ∧
      Template.openBlocks (rs.map ReadLine.kind) = o.blocks.length := by
  obtain ⟨rs, reads, all⟩ := addLines_ok_iff.mp added
  have start : Holds {} [] := .root .empty
  have stacked : Stacked rs o.root o.blocks := start.addAll all
  have count := stacked.openBlocks
  refine ⟨rs, reads, stacked, ?_⟩
  rw [Template.openBlocks]
  omega

/-- A template without a tree is refused for one of two reasons. Either the fault is that of the
first impossible line: the lines in front of it are those of a template as soon as every open
block is closed, and no template with a tree starts with the lines up to it. Or every line can be
read and none is impossible, and the fault names the line that opened the innermost block that is
open in the end. -/
theorem parse_fault_located (template : List Char) (f : Fault)
    (failed : parse template = .error f) :
    (∃ i, f.Stops (i + 1) ∧ FirstImpossible (Text.lines template) i) ∨
      ∃ l, f = .unterminated l ∧ LeftOpen (Text.lines template) l := by
  have feeds (k : Nat) : ∀ line ∈ (Text.lines template).take k, '\n' ∉ line :=
    fun line member => Text.feed_not_mem_lines (List.mem_of_mem_take member)
  rw [parse_eq] at failed
  cases added : Outline.addLines 1 {} (Text.lines template) with
  | error e =>
    rw [added] at failed
    cases failed
    obtain ⟨i, inside, stops, ⟨o, before⟩, here⟩ := Outline.addLines_error added
    obtain ⟨rs, reads, -, count⟩ := Outline.reads_of_addLines before
    refine .inl ⟨i, Nat.add_comm 1 i ▸ stops, inside, ⟨rs, reads, ?_⟩, ?_⟩
    · intro ends many closing
      exact Outline.accepted_of_addLines (feeds i) before (many.trans count) closing
    · intro viable
      obtain ⟨o', possible⟩ := Outline.addLines_of_viable viable
      rw [here] at possible
      cases possible
  | ok o =>
    rw [added] at failed
    obtain ⟨b, blocks, opened, rfl⟩ := Outline.finish_error failed
    obtain ⟨rs, reads, stacked, -⟩ := Outline.reads_of_addLines added
    refine .inr ⟨b.line, rfl, ⟨rs, reads, ?_⟩, fun k => ?_⟩
    · rw [opened] at stacked
      cases stacked with
      | inside _ part => exact part.openedLast
    · have whole := added
      rw [← List.take_append_drop k (Text.lines template), Outline.addLines_append] at whole
      obtain ⟨o', front, -⟩ := result_of_bind whole
      exact Outline.viable_of_addLines (feeds k) front

/-- A block that is divided twice. -/
def twiceDivided : List Char :=
  ("\x7b\x7b if .InstallGo \x7d\x7d\nRUN go version\n\x7b\x7b else \x7d\x7d\n" ++
    "\x7b\x7b else \x7d\x7d\n\x7b\x7b end \x7d\x7d\n").toList

theorem twiceDivided_located :
    parse twiceDivided = .error (.strayElse 4) ∧ FirstImpossible (Text.lines twiceDivided) 3 := by
  have failed : parse twiceDivided = .error (.strayElse 4) := by rfl
  refine ⟨failed, ?_⟩
  rcases parse_fault_located twiceDivided _ failed with ⟨i, stops, first⟩ | ⟨l, other, -⟩
  · rcases stops with other | here | ⟨action, other⟩
    · cases other
    · cases here
      exact first
    · cases other
  · cases other

end ImagePipeline.Template
