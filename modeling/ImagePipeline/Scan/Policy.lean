import ImagePipeline.Scan.Basic
import ImagePipeline.Text.Lines

/-! The policies that a new project starts with. A policy denies an image when all
conditions of one of its rules hold. -/
namespace ImagePipeline.ComplianceStandard

/-- A rule on any image of the input. -/
def denyRule (conditions : List String) : List String :=
  "deny contains msg if \x7b" ::
    ("some image in input" :: conditions).map (fun c => "\t" ++ c) ++ ["\x7d"]

/-- The user of the image must not be the privileged one. -/
def privilegeRule (message : String) : List String :=
  denyRule ["user := object.get(image.Config, \"User\", \"\")",
    "user in \x7b\"\", \"root\", \"0\", \"0:0\"\x7d",
    "msg := \"" ++ message ++ "\""]

def rules : ComplianceStandard → List (List String)
  | cisDocker => [
    ["# Input is the JSON array printed by `docker image inspect`."],
    privilegeRule "CIS 4.1: image must run as a non-root user",
    denyRule [
      "not image.Config.Healthcheck",
      "msg := \"CIS 4.6: image should declare a HEALTHCHECK\""],
    denyRule [
      "some port, _ in object.get(image.Config, \"ExposedPorts\", \x7b\x7d)",
      "port == \"22/tcp\"",
      "msg := \"CIS 5.7: SSH port must not be exposed\""]]
  | nist80053 => [
    privilegeRule "AC-6: least privilege requires a non-root runtime user",
    denyRule [
      "labels := object.get(image.Config, \"Labels\", \x7b\x7d)",
      "not labels[\"org.opencontainers.image.version\"]",
      "msg := \"CM-2: image must carry an org.opencontainers.image.version label\""],
    denyRule [
      "some env in object.get(image.Config, \"Env\", [])",
      "regex.match(`(?i)^[A-Z_]*(PASSWORD|SECRET|TOKEN)[A-Z_]*=.+`, env)",
      "msg := sprintf(\"IA-5: credential-like variable baked into image: %s\", " ++
        "[split(env, \"=\")[0]])"]]
  | pciDss => [
    ["insecure_ports := \x7b\"21/tcp\", \"23/tcp\", \"80/tcp\"\x7d"],
    denyRule [
      "some port, _ in object.get(image.Config, \"ExposedPorts\", \x7b\x7d)",
      "port in insecure_ports",
      "msg := sprintf(\"PCI-DSS 2.2.4: insecure service port exposed: %s\", [port])"],
    privilegeRule "PCI-DSS 7.2: container must not run as root"]

/-- The text of the policy: its paragraphs with an empty line between any two. -/
def policy (standard : ComplianceStandard) : String :=
  let paragraphs := ["package foundry." ++ standard.package] :: ["import rego.v1"] :: standard.rules
  Text.ofLines (List.intercalate [""] paragraphs)

end ImagePipeline.ComplianceStandard
