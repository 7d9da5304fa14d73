import ImagePipeline.Build.Basic
import ImagePipeline.Hash.Sha256
import ImagePipeline.Timestamp
import ImagePipeline.Yaml.Value.Writing

/-! The lock of a build: what its configuration, its Dockerfile and its build arguments
were at a point in time. -/
namespace ImagePipeline

def defaultLockFile : String := "foundry.lock"

structure FileLock where
  path : String
  sha256 : String
  deriving DecidableEq, Repr

structure ArchLock where
  arch : String
  image : String
  platform : String
  buildArgsHash : String
  deriving DecidableEq, Repr

structure BuildLock where
  name : String
  version : String
  generatedAt : Timestamp
  config : FileLock
  dockerfile : FileLock
  architectures : List ArchLock
  deriving DecidableEq, Repr

namespace BuildLock

/-- The bytes whose hash stands for the build of an architecture: its name, and each
argument behind a zero byte. -/
def buildArgsBytes (arch : String) (buildArgs : List String) : List UInt8 :=
  arch.toUTF8.toList ++ buildArgs.flatMap fun arg => 0 :: arg.toUTF8.toList

def archLock (c : Config) (arch : String) : ArchLock where
  arch
  image := c.imageReference arch
  platform := Config.platform arch
  buildArgsHash := Sha256.hexDigest (buildArgsBytes arch c.toolBuildArgs)

def hashFile (p : Path) : Work String := do
  let content ← Work.within ("Failed to read " ++ p.text ++ " for hashing") (Work.readBytes p)
  return Sha256.hexDigest content.toList

/-- Locks the build that the configuration asks for. -/
def compute (c : Config) (p : Project) (time : Timestamp) : Work BuildLock := do
  let config ← hashFile p.configPath
  let dockerfile ← hashFile (p.path c.dockerfile)
  return {
    name := c.name
    version := c.version
    generatedAt := time
    config := ⟨(p.relative p.configPath).text, config⟩
    dockerfile := ⟨c.dockerfile, dockerfile⟩
    architectures := c.base.architectures.map (archLock c) }

def fileValue (f : FileLock) : Yaml.Value :=
  .mapping [("path", .string f.path), ("sha256", .string f.sha256)]

def archValue (a : ArchLock) : Yaml.Value :=
  .mapping [("arch", .string a.arch), ("image", .string a.image), ("platform", .string a.platform),
    ("build_args_hash", .string a.buildArgsHash)]

def toValue (l : BuildLock) : Yaml.Value :=
  .mapping [("name", .string l.name), ("version", .string l.version),
    ("generated_at", .string l.generatedAt.text), ("config", fileValue l.config),
    ("dockerfile", fileValue l.dockerfile),
    ("architectures", .sequence (l.architectures.map archValue))]

def toYaml (l : BuildLock) : String := l.toValue.write

/-- Writes the lock, with the directories on the way. -/
def write (l : BuildLock) (path : Path) : Work Unit := do
  Work.createParent "Failed to create lockfile directory: " path
  Work.within ("Failed to create lockfile: " ++ path.text) (Work.writeText path l.toYaml)

end BuildLock

end ImagePipeline
