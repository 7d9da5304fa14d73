import ImagePipeline.Scan.Basic
import ImagePipeline.Trial.Basic

/-! The configurations that a new project can start with. -/
namespace ImagePipeline

inductive Preset where
  /-- A Go toolchain and a scanner on Ubuntu for two architectures. -/
  | standard
  /-- A bare Alpine image for one architecture. -/
  | minimal
  /-- The tools of deployment. -/
  | devops
  /-- Scanners, policies, bills of materials and signed images. -/
  | security
  deriving DecidableEq, Repr

namespace Preset

def all : List Preset := [standard, minimal, devops, security]

def name : Preset → String
  | standard => "default"
  | minimal => "minimal"
  | devops => "devops"
  | security => "security"

def ofName? (s : String) : Option Preset := all.find? fun p => p.name == s

/-- What all presets share. -/
def project (name description image template : String) (architectures : List String) : Config where
  name
  version := "1.0.0"
  description
  image := { name := image, tag := "latest", registry := "ghcr.io", owner := "myorg" }
  base := { template, architectures }

def installed (tools : List (String × String)) : OrderedMap Tool :=
  .ofList (tools.map fun (name, version) => (name, ⟨true, version⟩))

def vulnerabilityScan : VulnerabilityScan := { enabled := true, severity := defaultSeverity }

def layered : Optimization := { multiStage := true, cacheLayers := true }

def structureTests : StructureTests := { enabled := true, config := defaultStructureFile }

def config : Preset → Config
  | standard =>
    { project "my-project" "My custom container image" "my-custom-image" "ubuntu-24.04"
        ["amd64", "arm64"] with
      tools := {
        languages := installed [("go", "1.22.0")]
        security := installed [("trivy", "0.50.0")]
        packages := ["curl", "git"] }
      security := { trivy := vulnerabilityScan }
      optimization := layered }
  | minimal =>
    { project "my-project" "Minimal container image" "my-minimal-image" "alpine-3.20"
        ["amd64"] with
      tools := { packages := ["ca-certificates"] } }
  | devops =>
    { project "devops-toolbox" "Deployment tooling image" "devops-toolbox" "ubuntu-24.04"
        ["amd64", "arm64"] with
      tools := {
        devops := installed [("docker", "26.0"), ("kubectl", "1.29.0"), ("helm", "3.14.0"),
          ("terraform", "1.7.0")]
        packages := ["curl", "git", "jq"] }
      security := { trivy := vulnerabilityScan }
      optimization := layered
      testing := { structureTests, integrationTests := { enabled := true, timeout := "10m" } } }
  | security =>
    { project "secure-base" "Hardened, signed container image" "secure-base" "ubuntu-24.04"
        ["amd64", "arm64"] with
      tools := {
        security := installed [("trivy", "0.50.0"), ("cosign", "2.2.3"), ("syft", "1.0.1")] }
      security := {
        trivy := { vulnerabilityScan with ignoreUnfixed := true }
        compliance := {
          enabled := true, standards := ComplianceStandard.all.map ComplianceStandard.name }
        sast := { enabled := true, tools := [Analyzer.hadolint.name] } }
      optimization := layered
      testing := { structureTests }
      output := {
        sbom := { enabled := true, formats := ["spdx-json", "cyclonedx-json"] }
        signing := { enabled := true, cosign := { enabled := true, keyless := true } }
        attestation := { enabled := true, provenance := true, sbomAttestation := true } } }

end Preset

end ImagePipeline
