import ImagePipeline.Text.Lines

/-! The structure tests that a new project starts with. -/
namespace ImagePipeline

def structureFileText : String := Text.ofLines [
  "schemaVersion: \"2.0.0\"",
  "",
  "commandTests:",
  "  - name: \"shell is available\"",
  "    command: \"sh\"",
  "    args: [\"-c\", \"echo ok\"]",
  "    expectedOutput: [\"ok\"]",
  "  - name: \"runs as unprivileged user\"",
  "    command: \"id\"",
  "    args: [\"-un\"]",
  "    expectedOutput: [\"foundry\"]",
  "",
  "fileExistenceTests:",
  "  - name: \"home directory\"",
  "    path: \"/home/foundry\"",
  "    shouldExist: true",
  "  - name: \"ca certificates\"",
  "    path: \"/etc/ssl/certs\"",
  "    shouldExist: true",
  "",
  "metadataTest:",
  "  user: \"foundry\"",
  "  workdir: \"/home/foundry\"",
  "  cmd: [\"/bin/bash\"]"]

end ImagePipeline
