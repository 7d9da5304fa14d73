import ImagePipeline.Proofs.Template.Rewriting

/-! What a rendering depends on: the names that lines of text refer to, the flags that guards
refer to, the base and the packages, wherever in the template they stand and whether or not the
branch is taken. A fault in the blocks depends on the template alone. -/
namespace ImagePipeline.Template

/-! ### Faults in blocks -/

/-- A fault that the blocks of a template have, whatever its lines say. -/
def Fault.inBlocks : Fault → Bool
  | unterminated _ | strayEnd _ | strayElse _ => true
  | unsupported .. | unknownVariable .. | unknownFlag .. | dotOutsideRange _ | unclosedAction _ =>
    false

section Results

variable {α β : Type}

/-- A result that is no fault in the blocks. -/
def Unblocked (t : Except Fault α) : Prop := ∀ e, t = .error e → e.inBlocks = false

theorem Unblocked.ok (a : α) : Unblocked (.ok a) := fun _ => nofun

theorem Unblocked.error {e : Fault} (other : e.inBlocks = false) :
    Unblocked (.error e : Except Fault α) := by
  rintro _ ⟨⟩
  exact other

theorem Unblocked.bind {t : Except Fault α} {f : α → Except Fault β} (first : Unblocked t)
    (next : ∀ a, Unblocked (f a)) : Unblocked (t >>= f) := by
  cases t with
  | ok a => exact next a
  | error e => exact .error (first e rfl)

end Results

variable {c d : Context} {item : Option String} {n : Nat}

theorem pieceText_unblocked (p : Piece) : Unblocked (pieceText c item n p) := by
  cases p with
  | literal s => exact .ok s
  | unclosed => exact .error rfl
  | action inner =>
    rw [pieceText]
    unfold actionValue
    dsimp only
    split
    · split
      · exact .ok _
      · exact .error rfl
    · split
      · exact .error rfl
      · split
        · exact .ok _
        · exact .error rfl

theorem piecesText_unblocked (ps : List Piece) : Unblocked (piecesText c item n ps) := by
  induction ps with
  | nil => exact .ok []
  | cons p ps ih => exact (pieceText_unblocked p).bind fun _ => ih.bind fun _ => .ok _

theorem holds_unblocked (guard : Guard) : Unblocked (holds c n guard) := by
  cases guard with
  | flag name negated =>
    unfold holds
    dsimp only
    split
    · exact .ok _
    · exact .error rfl
  | baseIn names => exact .ok _

theorem forPackages_unblocked {f : String → Except Fault (List (List Char))}
    (each : ∀ p, Unblocked (f p)) (ps : List String) : Unblocked (forPackages f ps) := by
  induction ps with
  | nil => exact .ok []
  | cons p ps ih => exact (each p).bind fun _ => ih.bind fun _ => .ok _

mutual

theorem Node.render_unblocked (item : Option String) : (node : Node) →
    Unblocked (node.render c item)
  | .text n content => (piecesText_unblocked (n := n) (pieces false [] content)).bind fun _ => .ok _
  | .branch n guard chosen otherwise => by
    rw [Node.render]
    cases decided : holds c n guard with
    | error e => exact .error (holds_unblocked guard e decided)
    | ok on =>
      cases on with
      | true => exact renderNodes_unblocked item chosen
      | false => exact renderNodes_unblocked item otherwise
  | .loop body =>
    forPackages_unblocked (fun package => renderNodes_unblocked (some package) body) c.packages

/-- Once a template has a tree, its blocks are in order. -/
theorem renderNodes_unblocked (item : Option String) : (nodes : List Node) →
    Unblocked (renderNodes c item nodes)
  | [] => .ok []
  | node :: nodes =>
    (Node.render_unblocked item node).bind fun _ =>
      (renderNodes_unblocked item nodes).bind fun _ => .ok _

end

theorem parse_of_block_fault {template : String} {e : Fault} (blocks : e.inBlocks = true)
    (failed : render template c = .error e) : parse template.toList = .error e := by
  cases parsed : parse template.toList with
  | error e' =>
    rw [render_of_parse_error parsed, Except.error.injEq] at failed
    rw [failed]
  | ok nodes =>
    rw [render_of_parsed parsed] at failed
    cases result : renderNodes c none nodes with
    | ok lines =>
      rw [result] at failed
      cases failed
    | error e' =>
      rw [result] at failed
      cases failed
      cases blocks.symm.trans (renderNodes_unblocked none nodes e result)

/-! ### Names -/

def Piece.name? : Piece → Option String
  | .action inner => (fieldName? (actionText inner)).map String.ofList
  | .literal _ | .unclosed => none

/-- The names that a line refers to if it is a line of text. -/
def lineNames (line : List Char) : List String :=
  match kindOf 0 line with
  | .ok .text => (pieces false [] line).filterMap Piece.name?
  | _ => []

/-- The flag that the guard of a line refers to. -/
def guardName? (line : List Char) : Option String :=
  match kindOf 0 line with
  | .ok (.opening (.flag name _)) => some name
  | _ => none

def valueNames (template : String) : List String :=
  (Text.lines template.toList).flatMap lineNames

def flagNames (template : String) : List String :=
  (Text.lines template.toList).filterMap guardName?

theorem agrees_of_names {template : String} (base : d.base = c.base)
    (values : ∀ name ∈ valueNames template, d.value? name = c.value? name)
    (flags : ∀ name ∈ flagNames template, d.flag? name = c.flag? name) {x : ReadLine}
    (line : x.content ∈ Text.lines template.toList)
    (reads : kindOf x.number x.content = .ok x.kind) : x.Agrees .same c d := by
  have numberless : kindOf 0 x.content = .ok x.kind := kindOf_keeps x.content x.kind reads
  unfold ReadLine.Agrees
  split <;> rename_i kind
  · intro p member
    cases p with
    | literal s => rfl
    | unclosed => trivial
    | action inner =>
      intro name field
      have here : String.ofList name ∈ lineNames x.content := by
        rw [lineNames, numberless, kind]
        exact List.mem_filterMap.mpr ⟨_, member, by rw [Piece.name?, field]; rfl⟩
      rw [values _ (List.mem_flatMap.mpr ⟨_, line, here⟩)]
      cases c.value? (String.ofList name) with
      | none => rfl
      | some value => exact congrArg some (Rewriting.same_string value).symm
  · rename_i guard
    cases guard with
    | baseIn names => exact base
    | flag name negated =>
      have here : guardName? x.content = some name := by rw [guardName?, numberless, kind]
      exact flags name (List.mem_filterMap.mpr ⟨_, line, here⟩)
  · trivial
  · trivial
  · trivial

/-- A rendering depends on what its template mentions, and on nothing else of a context. A fault
in the blocks comes up in every context or in none; and contexts with one base and one list of
packages that agree on the values of the names in lines of text and on the flags in guards give
the same text or the same fault. -/
theorem render_depends_on_mentions (template : String) (c d : Context) :
    (∀ e : Fault, e.inBlocks = true →
      (render template c = .error e ↔ render template d = .error e)) ∧
    (d.base = c.base → d.packages = c.packages →
      (∀ name ∈ valueNames template, d.value? name = c.value? name) →
      (∀ name ∈ flagNames template, d.flag? name = c.flag? name) →
      render template d = render template c) := by
  constructor
  · intro e blocks
    constructor
    · intro failed
      exact render_of_parse_error (parse_of_block_fault blocks failed) d
    · intro failed
      exact render_of_parse_error (parse_of_block_fault blocks failed) c
  · intro base packages values flags
    have unchanged : d.packages = c.packages.map Rewriting.same.string := by
      rw [packages, Rewriting.map_same_string]
    rw [render_rewritten unchanged fun x line reads => agrees_of_names base values flags line reads]
    cases render template c with
    | error e => rfl
    | ok text => exact congrArg Except.ok (Rewriting.same_string text)

/-- A branch that is not taken refers to a name that neither context has. -/
def cleanupTemplate : String :=
  "\x7b\x7b- if .Minify \x7d\x7d\n# \x7b\x7b .Reason \x7d\x7d\n\x7b\x7b- end \x7d\x7d\n" ++
    "LABEL arch=\x7b\x7b .Arch \x7d\x7d\n"

def morning : Context where
  base := .alpine320
  values := [("Timestamp", "08:00"), ("Arch", "arm64")]
  flags := [("StripDebug", true), ("Minify", false)]
  packages := []

def evening : Context :=
  { morning with values := [("Arch", "arm64"), ("Timestamp", "20:00")], flags := [("Minify", false)] }

theorem cleanup_depends_on_mentions :
    valueNames cleanupTemplate = ["Reason", "Arch"] ∧ flagNames cleanupTemplate = ["Minify"] ∧
      render cleanupTemplate evening = render cleanupTemplate morning ∧
      render cleanupTemplate morning = .ok "LABEL arch=arm64\n" ∧
      render "\x7b\x7b- end \x7d\x7d\n" evening = .error (.strayEnd 1) := by
  have values : valueNames cleanupTemplate = ["Reason", "Arch"] := by decide +kernel
  have flags : flagNames cleanupTemplate = ["Minify"] := by decide +kernel
  have stray := (render_depends_on_mentions "\x7b\x7b- end \x7d\x7d\n" morning evening).1
    (.strayEnd 1) rfl
  refine ⟨values, flags, ?_, by decide +kernel, stray.mp (by decide +kernel)⟩
  refine (render_depends_on_mentions cleanupTemplate morning evening).2 rfl rfl ?_ ?_
  · rw [values]
    decide +kernel
  · rw [flags]
    decide +kernel

end ImagePipeline.Template
