import ImagePipeline.Build.Basic

/-! What an image and its sources are scanned with. -/
namespace ImagePipeline

/-- Rules that an image can be held to. -/
inductive ComplianceStandard where
  | cisDocker
  | nist80053
  | pciDss
  deriving DecidableEq, Repr

namespace ComplianceStandard

def all : List ComplianceStandard := [cisDocker, nist80053, pciDss]

/-- The name, which is also that of the policy file. -/
def name : ComplianceStandard → String
  | cisDocker => "cis-docker"
  | nist80053 => "nist-800-53"
  | pciDss => "pci-dss"

/-- The package of the policy below `foundry`. -/
def package : ComplianceStandard → String
  | cisDocker => "cis"
  | nist80053 => "nist"
  | pciDss => "pci"

def aliases : ComplianceStandard → List String
  | cisDocker => ["cis", "cis-docker", "cis-docker-benchmark"]
  | nist80053 => ["nist", "nist-800-53"]
  | pciDss => ["pci", "pci-dss"]

/-- Case and surrounding blanks do not matter. -/
def ofName? (s : String) : Option ComplianceStandard :=
  all.find? fun standard => standard.aliases.contains (Text.lowerAscii (Text.trimmed s))

end ComplianceStandard

/-- Analyzers of source text. -/
inductive Analyzer where
  | semgrep
  | gosec
  | bandit
  | hadolint
  deriving DecidableEq, Repr

namespace Analyzer

def all : List Analyzer := [semgrep, gosec, bandit, hadolint]

def name : Analyzer → String
  | semgrep => "semgrep"
  | gosec => "gosec"
  | bandit => "bandit"
  | hadolint => "hadolint"

/-- Case and surrounding blanks do not matter. -/
def ofName? (s : String) : Option Analyzer :=
  all.find? fun a => Text.sameIgnoringAsciiCase a.name (Text.trimmed s)

def args (c : Config) : Analyzer → List String
  | semgrep => ["scan", "--config", "auto", "--error", "."]
  | gosec => ["./..."]
  | bandit => ["-r", "."]
  | hadolint => [c.dockerfile]

end Analyzer

def defaultSeverity : String := "HIGH,CRITICAL"

/-- The description of the image that the policies judge. -/
def complianceInputFile : String := ".foundry/compliance-input.json"

namespace Config

def vulnerabilityCommand (c : Config) (p : Project) (image : String) : Command :=
  let scan := c.security.trivy
  let severity :=
    if Text.isBlankText scan.severity then defaultSeverity else Text.trimmed scan.severity
  { program := "trivy"
    args := ["image", "--severity", severity, "--exit-code", toString scan.exitCode] ++
      (if scan.ignoreUnfixed then ["--ignore-unfixed"] else []) ++ [image]
    workingDir := some p.root }

end Config

namespace Project

def inspectCommand (p : Project) (image : String) : Command where
  program := "docker"
  args := ["image", "inspect", image]
  workingDir := some p.root

def complianceCommand (p : Project) (standard : ComplianceStandard) : Command where
  program := "opa"
  args := ["eval", "--fail-defined", "--format", "pretty", "--input", complianceInputFile,
    "--data", policyRelative standard.name, "data.foundry." ++ standard.package ++ ".deny[msg]"]
  workingDir := some p.root

def analyzerCommand (p : Project) (c : Config) (a : Analyzer) : Command where
  program := a.name
  args := a.args c
  workingDir := some p.root

/-- Makes a database from the sources in a language, and queries it. -/
def codeCommands (p : Project) (language : String) : List Command :=
  let database := stateDirName ++ "/codeql/" ++ language
  [{ program := "codeql"
     args := ["database", "create", database, "--language", language, "--overwrite"]
     workingDir := some p.root },
   { program := "codeql"
     args := ["database", "analyze", database, "--format", "sarif-latest", "--output",
       database ++ ".sarif"]
     workingDir := some p.root }]

end Project

end ImagePipeline
