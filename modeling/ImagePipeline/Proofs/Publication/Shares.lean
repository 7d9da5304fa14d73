import ImagePipeline.Proofs.Build.Prefix
import ImagePipeline.Proofs.Publication.Plan
import Mathlib.Data.List.Forall2

/-! The share that each image has in a publication. The commands for an image end before those
for the next begin, so that what comes before a signed statement about an image is done with
that same image. -/
namespace ImagePipeline

variable {c : Config} {p : Project} {r : Runner} {s : Session}

/-- A plan in two parts: either the first part has been issued and has succeeded, and the rest
follows the second, or the work has ended within the first. -/
theorem Follows.split {plan front back : List Command} {xs : List Exchange}
    {as : List FileAction} {cause : Option Cause} (follows : Follows plan xs as cause)
    (parts : plan = front ++ back) :
    (∃ ys zs bs, xs = ys ++ zs ∧ ys.map Exchange.command = front ∧
      (∀ y ∈ ys, y.failure? = none) ∧ Follows back zs bs cause) ∨
      (xs.map Exchange.command <+: front ∧ ∀ x ∈ xs.dropLast, x.failure? = none) := by
  induction follows generalizing front with
  | completed =>
    obtain ⟨rfl, rfl⟩ := List.nil_eq_append_iff.mp parts
    exact .inl ⟨[], [], [], rfl, rfl, by simp, .completed⟩
  | @stopped x rest cause failure =>
    cases front with
    | nil =>
      obtain rfl : x.command :: rest = back := parts
      exact .inl ⟨[], _, _, rfl, rfl, by simp, .stopped failure⟩
    | cons first front =>
      obtain ⟨rfl, -⟩ := List.cons.inj parts
      exact .inr ⟨List.cons_prefix_cons.mpr ⟨rfl, List.nil_prefix⟩, by simp⟩
  | hindered failure => exact .inr ⟨List.nil_prefix, by simp⟩
  | @issued x rest xs as cause succeeded following ih =>
    cases front with
    | nil =>
      obtain rfl : x.command :: rest = back := parts
      exact .inl ⟨[], _, _, rfl, rfl, by simp, .issued succeeded following⟩
    | cons first front =>
      obtain ⟨rfl, tail⟩ := List.cons.inj parts
      rcases ih tail with ⟨ys, zs, bs, rfl, rfl, all, behind⟩ | ⟨inside, -⟩
      · exact .inl ⟨x :: ys, zs, bs, rfl, rfl, List.forall_mem_cons.mpr ⟨succeeded, all⟩, behind⟩
      · exact .inr ⟨List.cons_prefix_cons.mpr ⟨rfl, inside⟩,
          (Follows.issued succeeded following).succeeded_dropLast⟩
  | changed _ _ ih => exact ih parts

namespace Config

/-- The exchanges of a publication, image by image. Only when all is done with an image the
next has its turn. -/
inductive Shares (c : Config) (p : Project) : List BuiltImage → List (List Exchange) → Prop where
  | none : Shares c p [] []
  | whole {b : BuiltImage} {xs : List Exchange} {images : List BuiltImage}
      {parts : List (List Exchange)} : xs.map Exchange.command = c.releasePlan p b →
      (∀ x ∈ xs, x.failure? = none) → Shares c p images parts →
      Shares c p (b :: images) (xs :: parts)
  | last {b : BuiltImage} {xs : List Exchange} (images : List BuiltImage) :
      xs.map Exchange.command <+: c.releasePlan p b → (∀ x ∈ xs.dropLast, x.failure? = none) →
      Shares c p (b :: images) (xs :: images.map fun _ => [])

/-- Exchanges on the plan of one image, of which only the last may have failed. -/
structure Share (c : Config) (p : Project) (b : BuiltImage) (xs : List Exchange) : Prop where
  isPrefix : xs.map Exchange.command <+: c.releasePlan p b
  succeeded : ∀ x ∈ xs.dropLast, x.failure? = none

theorem Shares.each {images : List BuiltImage} {parts : List (List Exchange)}
    (shares : c.Shares p images parts) : List.Forall₂ (c.Share p) images parts := by
  induction shares with
  | none => exact .nil
  | whole same all _ ih =>
    refine .cons ⟨same ▸ List.prefix_rfl, ?_⟩ ih
    exact fun x member => all x (List.dropLast_subset _ member)
  | last images isPrefix succeeded =>
    refine .cons ⟨isPrefix, succeeded⟩ ?_
    rw [List.forall₂_map_right_iff, List.forall₂_same]
    exact fun b _ => ⟨List.nil_prefix, by simp⟩

end Config

theorem Follows.shares {images : List BuiltImage} {xs : List Exchange} {as : List FileAction}
    {cause : Option Cause} (follows : Follows (images.flatMap (c.releasePlan p)) xs as cause) :
    ∃ parts, xs = parts.flatten ∧ c.Shares p images parts := by
  induction images generalizing xs as with
  | nil => exact ⟨[], List.map_eq_nil_iff.mp (List.prefix_nil.mp follows.isPrefix), .none⟩
  | cons b images ih =>
    rcases follows.split List.flatMap_cons with ⟨ys, zs, bs, rfl, same, all, behind⟩ | ⟨inside, all⟩
    · obtain ⟨parts, rfl, shares⟩ := ih behind
      exact ⟨ys :: parts, rfl, .whole same all shares⟩
    · exact ⟨xs :: images.map fun _ => [], by simp, .last images inside all⟩

theorem publish_shares (c : Config) (p : Project) (r : Runner) (images : List BuiltImage)
    (s : Session) :
    ∃ parts changes, Adds r s ((publish c p r images).exec s).2 parts.flatten changes ∧
      c.Shares p images parts := by
  obtain ⟨xs, changes, added, follows, -⟩ := publish_pursues (c := c) (p := p) (r := r) images
  obtain ⟨parts, rfl, shares⟩ := follows.shares
  exact ⟨parts, changes, added, shares⟩

/-! ### Signed statements -/

theorem attestedFormat_planned (binds : c.bindsSbom = true) :
    attestedFormat ∈ c.plannedFormats := by
  unfold Config.plannedFormats
  by_cases listed : attestedFormat ∈ c.sbomFormats
  · exact List.mem_append_left _ listed
  · simp [binds, listed]

theorem mem_releasePlan {b : BuiltImage} {x : Command} (planned : x ∈ c.releasePlan p b) :
    (∃ format, x = b.sbomCommand p format) ∨ x = b.signCommand c p ∨
      (c.bindsSbom = true ∧ x = b.attestCommand c p) := by
  rcases List.mem_append.mp planned with front | statement
  · rcases List.mem_append.mp front with sboms | signature
    · split at sboms
      · obtain ⟨format, -, rfl⟩ := List.mem_map.mp sboms
        exact .inl ⟨format, rfl⟩
      · cases sboms
    · split at signature
      · exact .inr (.inl (List.mem_singleton.mp signature))
      · cases signature
  · split at statement
    · rename_i binds
      exact .inr (.inr ⟨binds, List.mem_singleton.mp statement⟩)
    · cases statement

/-- The one command for an image that makes a signed statement. -/
theorem attestCommand_of_planned {b : BuiltImage} {x : Command} {rest : List String}
    (planned : x ∈ c.releasePlan p b) (cosign : x.program = "cosign")
    (attests : x.args = "attest" :: rest) : c.bindsSbom = true ∧ x = b.attestCommand c p := by
  rcases mem_releasePlan planned with ⟨format, rfl⟩ | rfl | statement
  · exact absurd (show "syft" = "cosign" from cosign) (by decide)
  · exact absurd (show "sign" = "attest" from (List.cons.inj attests).1) (by decide)
  · exact statement

/-- Before a signed statement about an image its bill of materials has been made. -/
theorem Config.Share.attested {b : BuiltImage} {xs earlier later : List Exchange} {x : Exchange}
    {rest : List String} (share : c.Share p b xs) (split : xs = earlier ++ x :: later)
    (cosign : x.command.program = "cosign") (attests : x.command.args = "attest" :: rest) :
    x.command = b.attestCommand c p ∧
      ∃ y ∈ earlier, y.command = b.sbomCommand p attestedFormat ∧ y.failure? = none := by
  have upTo : (earlier ++ [x]).map Exchange.command <+: c.releasePlan p b := by
    refine List.IsPrefix.trans ?_ share.isPrefix
    exact ⟨later.map Exchange.command, by simp [split]⟩
  have planned : x.command ∈ c.releasePlan p b := upTo.subset (by simp)
  obtain ⟨binds, same⟩ := attestCommand_of_planned planned cosign attests
  have enabled : c.output.sbom.enabled = true := (Bool.and_eq_true_iff.mp binds).2
  have succeeded : ∀ y ∈ (earlier ++ [x]).dropLast, y.failure? = none := by
    intro y member
    rw [List.dropLast_concat] at member
    refine share.succeeded y ?_
    rw [split, List.dropLast_append_cons]
    exact List.mem_append_left _ member
  have front : c.releasePlan p b = c.plannedFormats.map (b.sbomCommand p) ++
      ((if c.output.signing.enabled && c.output.signing.cosign.enabled then [b.signCommand c p]
        else []) ++ [b.attestCommand c p]) := by
    rw [Config.releasePlan, enabled, binds, List.append_assoc]
    rfl
  have behind : x.command ∉ c.plannedFormats.map (b.sbomCommand p) := by
    intro member
    obtain ⟨format, -, syft⟩ := List.mem_map.mp member
    rw [← syft] at cosign
    exact absurd (show "syft" = "cosign" from cosign) (by decide)
  obtain ⟨y, member, sbom, made⟩ := succeeded_before (front ▸ upTo) succeeded (by simp) behind
    (b.sbomCommand p attestedFormat) (List.mem_map_of_mem (attestedFormat_planned binds))
  refine ⟨same, y, ?_, sbom, made⟩
  rcases List.mem_append.mp member with before | here
  · exact before
  · rw [List.mem_singleton.mp here, same] at sbom
    exact absurd (show "cosign" = "syft" from congrArg Command.program sbom) (by decide)

theorem attestCommand_args (b : BuiltImage) :
    (b.attestCommand c p).args = ("attest" :: "--yes" :: BuiltImage.keyArgs c ++
      ["--type", "spdxjson"]) ++ ["--predicate", sbomRelative b.arch attestedFormat,
        b.pinnedReference] := by
  simp [BuiltImage.attestCommand]

/-- A signed statement about an image is made only when a bill of materials of that image has
been made before, in the format for it and in the very file that the statement is given. -/
theorem attested_after_sbom (c : Config) (p : Project) (r : Runner) (images : List BuiltImage)
    (s : Session) :
    ∃ parts changes, Adds r s ((publish c p r images).exec s).2 parts.flatten changes ∧
      c.Shares p images parts ∧
      List.Forall₂ (fun b xs => ∀ earlier x later front predicate reference,
        xs = earlier ++ x :: later → x.command.program = "cosign" →
        x.command.args = "attest" :: front ++ ["--predicate", predicate, reference] →
        reference = b.pinnedReference ∧
          ∃ y ∈ earlier, y.command.program = "syft" ∧
            y.command.args = [reference, "-o", "spdx-json=" ++ predicate] ∧
            y.command.workingDir = x.command.workingDir ∧ y.failure? = none) images parts := by
  obtain ⟨parts, changes, added, shares⟩ := publish_shares c p r images s
  refine ⟨parts, changes, added, shares, shares.each.imp ?_⟩
  intro b xs share earlier x later front predicate reference split cosign attests
  obtain ⟨same, y, member, sbom, made⟩ := share.attested split cosign attests
  rw [same, attestCommand_args] at attests
  have operands := (List.append_inj' attests rfl).2
  simp only [List.cons.injEq, true_and, and_true] at operands
  obtain ⟨rfl, rfl⟩ := operands
  refine ⟨rfl, y, member, ?_, ?_, ?_, made⟩
  · rw [sbom]
    rfl
  · rw [sbom]
    rfl
  · rw [sbom, same]
    rfl

example :
    ((publish demo demoProject (rehearsal "make") [⟨"amd64", "demo:1-amd64", some "sha256:12"⟩]).exec
      {}).2.issued.map Command.args =
      [["demo@sha256:12", "-o", "cyclonedx-json=.foundry/sbom/amd64.cdx.json"],
        ["demo@sha256:12", "-o", "spdx-json=.foundry/sbom/amd64.spdx.json"],
        ["sign", "--yes", "--key", "cosign.key", "demo@sha256:12"],
        ["attest", "--yes", "--key", "cosign.key", "--type", "spdxjson", "--predicate",
          ".foundry/sbom/amd64.spdx.json", "demo@sha256:12"]] := by
  decide +kernel

end ImagePipeline
