import ImagePipeline.Text.Lines

/-! The skeleton that a new project starts with: one Dockerfile for all base images,
whose stages are `base`, `tools` and `final`. -/
namespace ImagePipeline.Template

/-- An action on a line of its own. -/
def directive (action : String) : String := "\x7b\x7b- " ++ action ++ " \x7d\x7d"

/-- An action inside a line. -/
def slot (action : String) : String := "\x7b\x7b " ++ action ++ " \x7d\x7d"

/-- The use of a build argument. -/
def argument (name : String) : String := "$\x7b" ++ name ++ "\x7d"

def skeletonLines : List String := [
  "# syntax=docker/dockerfile:1",
  "# " ++ slot ".ProjectName" ++ " " ++ slot ".ProjectVersion" ++ " on " ++ slot ".Base",
  "# Generated " ++ slot ".Timestamp",
  "",
  "FROM " ++ slot ".BaseImage" ++ " AS base",
  "ARG TARGETARCH=" ++ slot ".Arch",
  "LABEL org.opencontainers.image.title=\"" ++ slot ".ProjectName" ++ "\" \\",
  "      org.opencontainers.image.version=\"" ++ slot ".ProjectVersion" ++ "\" \\",
  "      org.opencontainers.image.created=\"" ++ slot ".Timestamp" ++ "\"",
  directive "if eq .Base \"ubuntu-24.04\" \"ubuntu-22.04\"",
  "ENV DEBIAN_FRONTEND=noninteractive",
  "RUN apt-get update \\",
  "    && apt-get install -y --no-install-recommends ca-certificates curl git " ++
    "gnupg tar unzip \\",
  "    && rm -rf /var/lib/apt/lists/*",
  directive "else",
  "RUN apk add --no-cache bash ca-certificates curl git tar unzip",
  directive "end",
  "",
  "FROM base AS tools",
  "ARG TARGETARCH",
  directive "if .InstallGo",
  "ARG GO_VERSION=" ++ slot ".GoVersion",
  "RUN curl -fsSL \"https://go.dev/dl/go" ++ argument "GO_VERSION" ++ ".linux-" ++
    argument "TARGETARCH" ++ ".tar.gz\" | tar -C /usr/local -xz",
  "ENV PATH=\"/usr/local/go/bin:" ++ argument "PATH" ++ "\"",
  directive "end",
  directive "if .InstallNodeJS",
  "ARG NODEJS_VERSION=" ++ slot ".NodeVersion",
  directive "if eq .Base \"alpine-3.20\"",
  "RUN apk add --no-cache nodejs npm",
  directive "else",
  "RUN curl -fsSL \"https://deb.nodesource.com/setup_" ++ argument "NODEJS_VERSION" ++
    ".x\" | bash - \\",
  "    && apt-get install -y --no-install-recommends nodejs \\",
  "    && rm -rf /var/lib/apt/lists/*",
  directive "end",
  directive "end",
  directive "if .InstallPython",
  directive "if eq .Base \"alpine-3.20\"",
  "RUN apk add --no-cache python3 py3-pip",
  directive "else",
  "RUN apt-get update \\",
  "    && apt-get install -y --no-install-recommends python3 python3-pip python3-venv \\",
  "    && rm -rf /var/lib/apt/lists/*",
  directive "end",
  directive "end",
  directive "if .InstallTrivy",
  "RUN curl -fsSL " ++
    "https://raw.githubusercontent.com/aquasecurity/trivy/main/contrib/install.sh | " ++
    "sh -s -- -b /usr/local/bin",
  directive "end",
  directive "if .InstallCosign",
  "RUN curl -fsSL -o /usr/local/bin/cosign " ++
    "\"https://github.com/sigstore/cosign/releases/latest/download/cosign-linux-" ++
    argument "TARGETARCH" ++ "\" \\",
  "    && chmod +x /usr/local/bin/cosign",
  directive "end",
  directive "if .InstallSyft",
  "RUN curl -fsSL https://raw.githubusercontent.com/anchore/syft/main/install.sh " ++
    "| sh -s -- -b /usr/local/bin",
  directive "end",
  directive "if .InstallDocker",
  directive "if eq .Base \"alpine-3.20\"",
  "RUN apk add --no-cache docker-cli docker-cli-buildx",
  directive "else",
  "RUN apt-get update \\",
  "    && apt-get install -y --no-install-recommends docker.io \\",
  "    && rm -rf /var/lib/apt/lists/*",
  directive "end",
  directive "end",
  directive "if .InstallKubectl",
  "ARG KUBECTL_VERSION=" ++ slot ".KubectlVersion",
  "RUN curl -fsSL -o /usr/local/bin/kubectl \"https://dl.k8s.io/release/v" ++
    argument "KUBECTL_VERSION" ++ "/bin/linux/" ++ argument "TARGETARCH" ++ "/kubectl\" \\",
  "    && chmod +x /usr/local/bin/kubectl",
  directive "end",
  directive "if .InstallHelm",
  "ARG HELM_VERSION=" ++ slot ".HelmVersion",
  "RUN curl -fsSL \"https://get.helm.sh/helm-v" ++ argument "HELM_VERSION" ++ "-linux-" ++
    argument "TARGETARCH" ++ ".tar.gz\" \\",
  "    | tar -xz --strip-components=1 -C /usr/local/bin \"linux-" ++ argument "TARGETARCH" ++
    "/helm\"",
  directive "end",
  directive "if .InstallTerraform",
  "ARG TERRAFORM_VERSION=" ++ slot ".TerraformVersion",
  "RUN curl -fsSL -o /tmp/terraform.zip \"https://releases.hashicorp.com/terraform/" ++
    argument "TERRAFORM_VERSION" ++ "/terraform_" ++ argument "TERRAFORM_VERSION" ++ "_linux_" ++
    argument "TARGETARCH" ++ ".zip\" \\",
  "    && unzip /tmp/terraform.zip -d /usr/local/bin \\",
  "    && rm /tmp/terraform.zip",
  directive "end",
  directive "range .AdditionalPackages",
  directive "if eq $.Base \"alpine-3.20\"",
  "RUN apk add --no-cache " ++ slot ".",
  directive "else",
  "RUN apt-get update && apt-get install -y --no-install-recommends " ++ slot "." ++
    " && rm -rf /var/lib/apt/lists/*",
  directive "end",
  directive "end",
  directive "if .StripDebug",
  "RUN find /usr/local/bin -type f -exec strip --strip-unneeded \x7b\x7d + " ++
    "2>/dev/null || true",
  directive "end",
  "",
  "FROM tools AS final",
  directive "if .InstallCompliance",
  "RUN chmod -R go-w /usr/local/bin",
  directive "end",
  directive "if .Minify",
  "RUN rm -rf /usr/share/doc /usr/share/man /var/cache/* /tmp/*",
  directive "end",
  "RUN useradd --create-home --shell /bin/bash foundry 2>/dev/null || adduser -D " ++
    "-s /bin/bash foundry",
  "USER foundry",
  "WORKDIR /home/foundry",
  "HEALTHCHECK --interval=30s --timeout=5s CMD [\"true\"]",
  "CMD [\"/bin/bash\"]"]

def skeleton : String := Text.ofLines skeletonLines

end ImagePipeline.Template
