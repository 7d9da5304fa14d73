import ImagePipeline.Build.Basic

/-! What happens to pushed images: a bill of materials, a signature and a signed
statement that binds the two. -/
namespace ImagePipeline

/-- The format of the bill of materials that is attested. -/
def attestedFormat : String := "spdx-json"

def signingKeyFile : String := "cosign.key"

/-- The ending of the file that holds a bill of materials in this format. -/
def sbomExtension (format : String) : String :=
  if format == "spdx-json" then "spdx.json"
  else if format == "cyclonedx-json" then "cdx.json"
  else if format == "cyclonedx-xml" || format == "cyclonedx" then "cdx.xml"
  else if format == "syft-json" || format == "json" then "syft.json"
  else if format == "spdx-tag-value" || format == "spdx" then "spdx"
  else Text.replaceChar '-' '.' format

def sbomRelative (arch format : String) : String :=
  stateDirName ++ "/sbom/" ++ archSlug arch ++ "." ++ sbomExtension format

namespace Config

def signs (c : Config) : Bool := c.output.signing.enabled && c.output.signing.cosign.enabled

def attestsSbom (c : Config) : Bool :=
  c.output.attestation.enabled && c.output.attestation.sbomAttestation && c.output.sbom.enabled

/-- Whether anything is left to do for a pushed image. -/
def hasReleaseSteps (c : Config) : Bool := c.output.sbom.enabled || c.signs || c.attestsSbom

/-- The formats without blank ones; if there are none, the one that can be attested. -/
def sbomFormats (c : Config) : List String :=
  let formats := (c.output.sbom.formats.map Text.trimmed).filter fun f => !f.isEmpty
  if formats.isEmpty then [attestedFormat] else formats

end Config

namespace BuiltImage

def sbomCommand (b : BuiltImage) (p : Project) (format : String) : Command where
  program := "syft"
  args := [b.pinnedReference, "-o", format ++ "=" ++ sbomRelative b.arch format]
  workingDir := some p.root

def sbomCommands (b : BuiltImage) (c : Config) (p : Project) : List Command :=
  c.sbomFormats.map (b.sbomCommand p)

/-- Without a key the signer's identity is asked for. -/
def keyArgs (c : Config) : List String :=
  if c.output.signing.cosign.keyless then [] else ["--key", signingKeyFile]

def signCommand (b : BuiltImage) (c : Config) (p : Project) : Command where
  program := "cosign"
  args := ["sign", "--yes"] ++ keyArgs c ++ [b.pinnedReference]
  workingDir := some p.root

def attestCommand (b : BuiltImage) (c : Config) (p : Project) : Command where
  program := "cosign"
  args := ["attest", "--yes"] ++ keyArgs c ++
    ["--type", "spdxjson", "--predicate", sbomRelative b.arch attestedFormat, b.pinnedReference]
  workingDir := some p.root

/-- A statement is always about a bill of materials in the format for it, so that is made
even if it is not listed. -/
def sbomSteps (b : BuiltImage) (c : Config) (p : Project) : List Step :=
  if c.output.sbom.enabled then
    let required :=
      if c.attestsSbom && !c.sbomFormats.contains attestedFormat then
        [b.sbomCommand p attestedFormat]
      else []
    (b.sbomCommands c p ++ required).map fun command =>
      ⟨"sbom:" ++ b.arch, command, "SBOM generation failed for " ++ b.arch⟩
  else []

/-- Everything that is done for a pushed image, in order. -/
def releaseSteps (b : BuiltImage) (c : Config) (p : Project) : List Step :=
  b.sbomSteps c p ++
  (if c.signs then
    [⟨"sign:" ++ b.arch, b.signCommand c p, "signing failed for " ++ b.arch⟩] else []) ++
  (if c.attestsSbom then
    [⟨"attest:" ++ b.arch, b.attestCommand c p, "attestation failed for " ++ b.arch⟩] else [])

end BuiltImage

/-- Takes the steps for each image, one image after the other. -/
def publish (c : Config) (p : Project) (r : Runner) (images : List BuiltImage) : Work Unit := do
  if c.hasReleaseSteps then
    if c.output.sbom.enabled && r.executes then
      let _ ← p.ensureStateDir "sbom"
    r.performAll (images.flatMap fun b => b.releaseSteps c p)

end ImagePipeline
