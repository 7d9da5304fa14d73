import ImagePipeline.Proofs.Template.Texts

/-! Build arguments in the skeleton. Its tree passes the check of scopes, so that every
configuration of plain texts gives a Dockerfile in which the stages declare the arguments they
use, whichever tools it chooses. -/
namespace ImagePipeline

/-- Plain texts wherever the skeleton puts in what is configured. -/
structure Config.Plain (config : Config) : Prop where
  name : Text.Plain config.name.toList
  version : Text.Plain config.version.toList
  arch : ∀ arch ∈ config.base.architectures.head?, Text.Plain arch.toList
  tools : ∀ entry ∈ config.tools.all, Text.Plain entry.2.2.version.toList
  packages : ∀ p ∈ config.tools.packages, Text.Plain p.toList

namespace Template

/-- Of plain texts a plain context is made. -/
theorem ofConfig_plain {config : Config} (plain : config.Plain) (base : BaseImage)
    (time : Timestamp) : (Context.ofConfig config base time).Plain := by
  have texts := ofConfig_texts Text.plain_harmless
    ⟨plain.name, plain.version, plain.arch, plain.tools, plain.packages⟩ base time
  exact ⟨texts.values, texts.packages⟩

/-! ### The skeleton -/

/-- The arguments that the skeleton declares. -/
def skeletonArguments : List (List Char) :=
  ["TARGETARCH", "GO_VERSION", "NODEJS_VERSION", "KUBECTL_VERSION", "HELM_VERSION",
    "TERRAFORM_VERSION"].map String.toList

def skeletonScopes (lines : List (List Char)) : Bool :=
  match (Outline.addLines 1 {} lines).bind Outline.finish with
  | .ok nodes => (nodesScope skeletonArguments [] nodes).isSome
  | .error _ => false

theorem skeleton_scopes : skeletonScopes (skeletonLines.map String.toList) = true := by
  simp only [skeletonLines, List.map_cons, List.map_nil, directive, slot, argument,
    String.toList_append]
  -- literals are rewritten first, as for the other checks of the skeleton
  repeat rw [String.toList_ofList]
  decide +kernel

theorem skeleton_checked :
    ∃ nodes behind, parse skeleton.toList = .ok nodes ∧ nodesClosed configNames false nodes = true ∧
      nodesScope skeletonArguments [] nodes = some behind := by
  obtain ⟨nodes, parsed, unbroken, closed, -⟩ := parsed_of_checks skeleton_checks
  have scopes := skeleton_scopes
  rw [skeletonScopes, parsed] at scopes
  obtain ⟨behind, checked⟩ := Option.isSome_iff_exists.mp scopes
  refine ⟨nodes, behind, ?_, closed, checked⟩
  rw [parse_eq, skeleton, Text.lines_ofLines unbroken]
  exact parsed

/-- Whatever tools and options are chosen, the skeleton gives a Dockerfile in which every use of
an argument that it declares stands behind a declaration in the same stage, if the texts that are
configured are plain. The scan finds no problem. -/
theorem skeleton_arguments_in_scope (config : Config) (base : BaseImage) (time : Timestamp)
    (plain : config.Plain) :
    ∃ text, render skeleton (Context.ofConfig config base time) = .ok text ∧
      Dockerfile.outOfScope text = [] ∧
      Dockerfile.UsedInScope (Dockerfile.trimmedLines text) := by
  obtain ⟨nodes, behind, parsed, closed, checked⟩ := skeleton_checked
  rw [← names_ofConfig config base time] at closed
  obtain ⟨lines, rendered⟩ := renderNodes_of_closed none nodes closed
  have whole := render_ok parsed rendered
  have ends : Text.endsWithLineFeed skeleton.toList = true :=
    Text.endsWithLineFeed_ofLines (List.cons_ne_nil _ _)
  exact ⟨_, whole, render_in_scope ends parsed checked (ofConfig_plain plain base time) whole⟩

/-- Tools of three categories, one with the usual version, and a package. -/
def toolsConfig : Config where
  name := "forge"
  version := "1.4.0"
  base := { architectures := ["arm64"] }
  tools := {
    languages := .ofList [("go", { install := true, version := "1.22.1" })]
    security := .ofList [("cosign", { install := true })]
    devops := .ofList [("helm", { install := true })]
    packages := ["jq"] }

theorem tools_uses :
    (renderChars skeleton.toList (Context.ofConfig toolsConfig .alpine320 ⟨0, 0⟩)).toOption.map
      (fun text => ((Text.lines text).map Text.trim).flatMap Dockerfile.uses) =
      some (["GO_VERSION", "TARGETARCH", "PATH", "TARGETARCH", "HELM_VERSION", "TARGETARCH",
        "TARGETARCH"].map String.toList) := by
  rw [skeleton, Text.toList_ofLines]
  simp only [skeletonLines, List.map_cons, List.map_nil, directive, slot, argument,
    String.toList_append]
  repeat rw [String.toList_ofList]
  decide +kernel

/-- The uses in scope are those of the tools that are installed, and `PATH`, which is no
argument. -/
theorem tools_arguments_in_scope :
    ∃ text, render skeleton (Context.ofConfig toolsConfig .alpine320 ⟨0, 0⟩) = .ok text ∧
      (Dockerfile.trimmedLines text).flatMap Dockerfile.uses =
        ["GO_VERSION", "TARGETARCH", "PATH", "TARGETARCH", "HELM_VERSION", "TARGETARCH",
          "TARGETARCH"].map String.toList ∧
      Dockerfile.outOfScope text = [] ∧
      Dockerfile.UsedInScope (Dockerfile.trimmedLines text) := by
  obtain ⟨text, rendered, inScope⟩ := skeleton_arguments_in_scope toolsConfig .alpine320 ⟨0, 0⟩
    ⟨by decide, by decide, by decide, by decide, by decide⟩
  refine ⟨text, rendered, ?_, inScope⟩
  have used := tools_uses
  rw [renderChars_of_render rendered] at used
  exact Option.some.inj used

end Template

end ImagePipeline
