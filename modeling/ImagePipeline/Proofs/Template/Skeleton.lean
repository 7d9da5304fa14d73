import ImagePipeline.Proofs.Dockerfile.Lint
import ImagePipeline.Proofs.Template.Blocks
import ImagePipeline.Proofs.Template.Render
import ImagePipeline.Proofs.Text.Lines
import ImagePipeline.Template.Skeleton

/-! The skeleton renders for every configuration, and its three stages stay what they are
whatever texts are configured. -/
namespace ImagePipeline.Template

/-- The names that the context of a configuration binds. -/
def configNames : Names :=
  let flags := ["StripDebug", "Minify", "CacheLayers", "MultiStage", "InstallCompliance",
    "InstallTerraform", "InstallHelm", "InstallKubectl", "InstallDocker", "InstallSyft",
    "InstallCosign", "InstallTrivy", "InstallPython", "InstallNodeJS", "InstallGo"]
  let values := ["TerraformVersion", "HelmVersion", "KubectlVersion", "PythonVersion",
    "NodeVersion", "GoVersion", "Timestamp", "ProjectVersion", "ProjectName", "Arch",
    "BaseImage", "Base"]
  ⟨values ++ flags, flags⟩

section OfConfig

variable (config : Config) (base : BaseImage) (time : Timestamp)

theorem names_ofConfig : (Context.ofConfig config base time).names = configNames := rfl

theorem baseImage_ofConfig :
    (Context.ofConfig config base time).value? "BaseImage" = some base.image := rfl

end OfConfig

/-- The text of a node that is a line of text, in pieces. -/
def Node.pieces : Node → List Piece
  | .text _ content => Template.pieces false [] content
  | .branch .. | .loop .. => []

def Node.startsStage : Node → Bool
  | .text _ content => Text.startsWith "FROM ".toList content
  | .branch .. | .loop .. => false

/-- The lines of the skeleton that start a stage. -/
def stagePieces : List (List Piece) := [
  [.literal "FROM ".toList, .action " .BaseImage ".toList, .literal " AS base".toList],
  [.literal "FROM base AS tools".toList],
  [.literal "FROM tools AS final".toList]]

/-- What is checked of the skeleton by evaluation: it can be parsed, uses only names that
are bound, and has its stages outside of all blocks. -/
def skeletonChecks (lines : List (List Char)) : Bool :=
  match (Outline.addLines 1 {} lines).bind Outline.finish with
  | .ok nodes => lines.all (fun line => decide (Text.Unbroken line)) &&
      nodesClosed configNames false nodes &&
      (nodes.filter Node.startsStage).map Node.pieces == stagePieces
  | .error _ => false

theorem parsed_of_checks {lines : List (List Char)} (checks : skeletonChecks lines = true) :
    ∃ nodes, (Outline.addLines 1 {} lines).bind Outline.finish = .ok nodes ∧
      (∀ line ∈ lines, Text.Unbroken line) ∧ nodesClosed configNames false nodes = true ∧
      (nodes.filter Node.startsStage).map Node.pieces = stagePieces := by
  unfold skeletonChecks at checks
  split at checks
  · rename_i nodes parsed
    simp only [Bool.and_eq_true, List.all_eq_true, decide_eq_true_eq, beq_iff_eq] at checks
    obtain ⟨⟨unbroken, closed⟩, stages⟩ := checks
    exact ⟨nodes, parsed, unbroken, closed, stages⟩
  · cases checks

theorem skeleton_checks : skeletonChecks (skeletonLines.map String.toList) = true := by
  simp only [skeletonLines, List.map_cons, List.map_nil, directive, slot, argument,
    String.toList_append]
  -- evaluating a literal as a list of characters is slow, so each is rewritten first
  repeat rw [String.toList_ofList]
  decide +kernel

theorem skeleton_parses :
    ∃ nodes, parse skeleton.toList = .ok nodes ∧ nodesClosed configNames false nodes = true ∧
      (nodes.filter Node.startsStage).map Node.pieces = stagePieces := by
  obtain ⟨nodes, parsed, unbroken, closed, stages⟩ := parsed_of_checks skeleton_checks
  rw [parse_eq, skeleton, Text.lines_ofLines unbroken]
  exact ⟨nodes, parsed, closed, stages⟩

/-- The lines that start the stages, rendered. -/
def stageTexts (base : BaseImage) : List (List Char) :=
  ["FROM ".toList ++ (base.image.toList ++ " AS base".toList), "FROM base AS tools".toList,
    "FROM tools AS final".toList]

theorem Node.render_pieces {node : Node} {ps : List Piece} {line : List Char} {c : Context}
    {item : Option String} (same : node.pieces = ps) (inhabited : ps ≠ [])
    (rendered : ∀ n, piecesText c item n ps = .ok line) : node.render c item = .ok [line] := by
  subst same
  cases node with
  | text n content =>
    rw [Node.render, substitute]
    exact congrArg (Except.map fun line => [line]) (rendered n)
  | branch | loop => exact absurd rfl inhabited

theorem stages_render {nodes : List Node} {base : BaseImage} {c : Context}
    (image : c.value? "BaseImage" = some base.image)
    (stages : nodes.map Node.pieces = stagePieces) :
    renderNodes c none nodes = .ok (stageTexts base) := by
  obtain ⟨first, rest, rfl, same, following⟩ := List.map_eq_cons_iff.mp stages
  obtain ⟨second, rest, rfl, same', following⟩ := List.map_eq_cons_iff.mp following
  obtain ⟨third, rest, rfl, same'', following⟩ := List.map_eq_cons_iff.mp following
  obtain rfl := List.map_eq_nil_iff.mp following
  have slotted (n : Nat) : actionValue c none n " .BaseImage ".toList = .ok base.image.toList := by
    have field : fieldName? (actionText " .BaseImage ".toList) = some "BaseImage".toList := by
      decide +kernel
    have other : (actionText " .BaseImage ".toList == ['.']) = false := by decide +kernel
    simp only [actionValue, field, other, String.ofList_toList, image, Bool.false_eq_true, if_false]
  have front : first.render c none =
      .ok ["FROM ".toList ++ (base.image.toList ++ " AS base".toList)] :=
    Node.render_pieces same (by simp) fun n => by
      simp only [piecesText, pieceText, slotted, bind, Except.bind, pure, Except.pure,
        List.append_nil]
  have literal {s : List Char} (n : Nat) : piecesText c none n [.literal s] = .ok s := by
    simp only [piecesText, pieceText, bind, Except.bind, pure, Except.pure, List.append_nil]
  have middle := Node.render_pieces same' (by simp) fun n => literal n
  have back := Node.render_pieces same'' (by simp) fun n => literal n
  simp only [renderNodes, front, middle, back]
  rfl

theorem stageTexts_stages (base : BaseImage) :
    2 ≤ (Dockerfile.stageWords (stageTexts base)).length ∧
      (Dockerfile.stageWords (stageTexts base)).any Dockerfile.namesFinal = true ∧
      ∀ line ∈ stageTexts base, Text.Unbroken line := by
  cases base <;> decide +kernel

/-- The lines of a text that the skeleton gives, among them those that start the stages. -/
theorem stageTexts_sublist {base : BaseImage} {lines : List (List Char)}
    (sublist : (stageTexts base).Sublist lines) :
    (stageTexts base).Sublist (Text.lines (assemble skeleton.toList lines)) := by
  have member : "FROM base AS tools".toList ∈ lines :=
    sublist.subset (List.mem_cons_of_mem _ List.mem_cons_self)
  have some := Text.unlines_ne_nil member (by decide)
  have ends : Text.endsWithLineFeed skeleton.toList = true :=
    Text.endsWithLineFeed_ofLines (List.cons_ne_nil _ _)
  have whole : assemble skeleton.toList lines = Text.unlines lines ++ ['\n'] := by
    simp [assemble, ends, some]
  rw [whole]
  exact Text.sublist_lines sublist (List.ne_nil_of_mem member) (stageTexts_stages base).2.2

/-- Every configuration renders the skeleton, with no problem in the Dockerfile that
results: nothing that is configured can break its stages. -/
theorem skeleton_renders (config : Config) (base : BaseImage) (time : Timestamp) :
    ∃ text, render skeleton (Context.ofConfig config base time) = .ok text ∧
      Dockerfile.lint text = [] ∧
      "FROM " ++ base.image ++ " AS base" ∈ Text.linesOf text := by
  obtain ⟨nodes, parsed, closed, stages⟩ := skeleton_parses
  rw [← names_ofConfig config base time] at closed
  obtain ⟨lines, rendered⟩ := renderNodes_of_closed none nodes closed
  obtain ⟨those, found, inside⟩ := renderNodes_sublist List.filter_sublist rendered
  -- the other lines hold configured texts, which may be anything
  cases found.symm.trans (stages_render (baseImage_ofConfig config base time) stages)
  have kept := stageTexts_sublist inside
  obtain ⟨two, final, -⟩ := stageTexts_stages base
  refine ⟨_, render_ok parsed rendered, ?_, ?_⟩
  · exact Dockerfile.lint_of_sublist (by rwa [String.toList_ofList]) two final
  · rw [Text.linesOf, String.toList_ofList]
    refine List.mem_map.mpr ⟨_, kept.subset List.mem_cons_self, ?_⟩
    simp only [String.ofList_append, String.ofList_toList, String.append_assoc]

end ImagePipeline.Template
