import ImagePipeline.CommandLine.Run
import ImagePipeline.Proofs.Work

/-! The gate in front of the commands. A build, a test, a scan and a lock demand a configuration
that loads and in which no error is found, and a test and a scan one that has the architecture
they are given. Up to there a command does nothing but log, so that one that is turned away has
issued no command and has left the files as they were. -/
namespace ImagePipeline

/-! ### Loading a configuration -/

namespace FileTree

/-- The configuration that stands in a file. -/
structure HoldsConfig (t : FileTree) (q : Path) (c : Config) : Prop where
  there : t.pathExists q = true
  reads : ∃ text, t.readText q = .ok text ∧ Config.ofYaml? text = some c

/-- How loading a configuration fails. -/
inductive Unloadable (t : FileTree) (q : Path) : Failure → Prop where
  | missing : t.pathExists q = false → Unloadable t q { cause := .configMissing q }
  | unreadable {e : OsError} : t.pathExists q = true → t.readText q = .error e →
      Unloadable t q { contexts := ["Failed to read config file: " ++ q.text], cause := .os e }
  | malformed {text : String} : t.pathExists q = true → t.readText q = .ok text →
      Config.ofYaml? text = none →
      Unloadable t q
        { contexts := ["Failed to parse config YAML: " ++ q.text], cause := .malformedDocument }

variable {t : FileTree} {q : Path} {c d : Config} {f : Failure}

theorem HoldsConfig.unique (holds : t.HoldsConfig q c) (again : t.HoldsConfig q d) : c = d := by
  obtain ⟨text, reads, parsed⟩ := holds.reads
  obtain ⟨text', reads', parsed'⟩ := again.reads
  obtain rfl := Except.ok.inj (reads.symm.trans reads')
  exact Option.some.inj (parsed.symm.trans parsed')

theorem Unloadable.not_holds (unloadable : t.Unloadable q f) : ¬ t.HoldsConfig q c := by
  rintro ⟨there, text, reads, parsed⟩
  cases unloadable with
  | missing absent =>
    rw [there] at absent
    contradiction
  | unreadable _ fails =>
    rw [reads] at fails
    contradiction
  | malformed _ found fails =>
    obtain rfl := Except.ok.inj (reads.symm.trans found)
    rw [parsed] at fails
    contradiction

end FileTree

/-- Loading either gives the configuration in the file or fails, and leaves the session alone. -/
theorem Config.exec_load (q : Path) (s : Session) :
    (∃ c, s.files.HoldsConfig q c ∧ (load q).exec s = (.ok c, s)) ∨
      ∃ f, s.files.Unloadable q f ∧ (load q).exec s = (.error f, s) := by
  unfold load
  rw [Work.exec_bind_ok (Work.exec_files s)]
  cases there : s.files.pathExists q with
  | false => exact .inr ⟨_, .missing there, rfl⟩
  | true =>
    simp only [if_true, Work.exec_bind, Work.exec_within, Work.exec_readText]
    cases reads : s.files.readText q with
    | error e => exact .inr ⟨_, .unreadable there reads, rfl⟩
    | ok text =>
      dsimp only [Except.mapError]
      cases parsed : ofYaml? text with
      | none =>
        rw [Work.exec_within, Work.exec_fail]
        exact .inr ⟨_, .malformed there reads parsed, rfl⟩
      | some c => exact .inl ⟨c, ⟨there, text, reads, parsed⟩, rfl⟩

/-- The session with more in its log. -/
def Session.logging (s : Session) (text : String) : Session :=
  { s with logged := s.logged ++ text }

theorem Session.logging_logging (s : Session) (text more : String) :
    (s.logging text).logging more = s.logging (text ++ more) := by
  simp only [logging, String.append_assoc]

namespace CommandLine

variable {t : FileTree} {p : Project} {action : String} {arch : Option String} {f : Failure}

/-! ### The demands -/

/-- The requests that have a gate: what they call their work, and the architecture they are
given. An architecture of a build is not looked at there. -/
inductive Request.Demands : Request → String → Option String → Prop where
  | build (r : BuildRequest) : Demands (.build r) "build" none
  | test (arch : Option String) : Demands (.test arch) "test" arch
  | scan (arch : Option String) : Demands (.scan arch) "scan" arch
  | lock (output : Path) : Demands (.lock output) "generate lockfile" none

/-- A configuration that is let through: it loads, no error is found in it, and it has the
architecture. -/
structure Admits (t : FileTree) (p : Project) (arch : Option String) (c : Config) : Prop where
  holds : t.HoldsConfig p.configPath c
  sound : (c.check p t).errors = []
  configured : ∀ a, arch = some a → a ∈ c.base.architectures

/-- Why a command is turned away. -/
inductive Refusal (t : FileTree) (p : Project) (action : String) (arch : Option String) :
    Failure → Prop where
  | unloadable {f : Failure} : t.Unloadable p.configPath f → Refusal t p action arch f
  | unsound {c : Config} : t.HoldsConfig p.configPath c → (c.check p t).errors ≠ [] →
      Refusal t p action arch { cause := .invalidConfig action (c.check p t).errors.length }
  | unconfigured {c : Config} {a : String} : t.HoldsConfig p.configPath c →
      (c.check p t).errors = [] → arch = some a → a ∉ c.base.architectures →
      Refusal t p action arch { cause := .architectureNotConfigured a c.base.architectures }

/-- A clock has no part in it. -/
theorem Refusal.cause_ne (refusal : Refusal t p action arch f) : f.cause ≠ .clockOverflow := by
  cases refusal with
  | unloadable unloadable => cases unloadable <;> exact nofun
  | unsound | unconfigured => exact nofun

/-! ### The gate -/

namespace Context

theorem exec_logAll (x : Context) (level : LogLevel) (messages : List String) (s : Session) :
    ∃ text, (x.logAll level messages).exec s = (.ok (), s.logging text) := by
  induction messages generalizing s with
  | nil => exact ⟨"", by simp [logAll, Session.logging]⟩
  | cons message rest ih =>
    have first : ∃ line, (x.log level message).exec s = (.ok (), s.logging line) :=
      ⟨_, Work.exec_log _ s⟩
    obtain ⟨line, first⟩ := first
    obtain ⟨text, others⟩ := ih (s.logging line)
    refine ⟨line ++ text, ?_⟩
    rw [logAll, Work.exec_bind_ok first, others, Session.logging_logging]

/-- A review finds the errors, and logs. -/
theorem exec_review (x : Context) (c : Config) (s : Session) :
    ∃ text, (x.review c).exec s = (.ok (c.check x.project s.files).errors, s.logging text) := by
  obtain ⟨warnings, warned⟩ := x.exec_logAll .warning
    ((c.check x.project s.files).warnings.map ConfigWarning.message) s
  obtain ⟨errors, reported⟩ := x.exec_logAll .error
    ((c.check x.project s.files).errors.map ConfigError.message) (s.logging warnings)
  refine ⟨warnings ++ errors, ?_⟩
  unfold review
  rw [Work.exec_bind_ok (Work.exec_files s), Work.exec_bind_ok warned,
    Work.exec_bind_ok reported, Session.logging_logging]
  rfl

theorem exec_loadSound (x : Context) (action : String) (s : Session) :
    (∃ c text, s.files.HoldsConfig x.project.configPath c ∧
        (c.check x.project s.files).errors = [] ∧
        (x.loadSound action).exec s = (.ok c, s.logging text)) ∨
      ∃ f text, (∀ arch, Refusal s.files x.project action arch f) ∧
        (x.loadSound action).exec s = (.error f, s.logging text) := by
  unfold loadSound
  rcases Config.exec_load x.project.configPath s with ⟨c, holds, loads⟩ | ⟨f, unloadable, fails⟩
  · obtain ⟨text, reviewed⟩ := x.exec_review c s
    rw [load, Work.exec_bind_ok loads, Work.exec_bind_ok reviewed]
    cases errors : (c.check x.project s.files).errors with
    | nil => exact .inl ⟨c, text, holds, errors, rfl⟩
    | cons error others =>
      have unsound : (c.check x.project s.files).errors ≠ [] := by simp [errors]
      exact .inr ⟨_, text, fun _ => .unsound holds unsound, by rw [errors]; rfl⟩
  · refine .inr ⟨f, "", fun _ => .unloadable unloadable, ?_⟩
    rw [load, Work.exec_bind_error fails]
    simp [Session.logging]

/-- An architecture that is given must be configured. -/
theorem exec_targetArch (c : Config) (arch : Option String) (s : Session) :
    ((∀ a, arch = some a → a ∈ c.base.architectures) ∧
        ∃ target, (targetArch c arch).exec s = (.ok target, s)) ∨
      ∃ a, arch = some a ∧ a ∉ c.base.architectures ∧ (targetArch c arch).exec s =
        (.error { cause := .architectureNotConfigured a c.base.architectures }, s) := by
  cases arch with
  | none => exact .inl ⟨nofun, c.defaultArch, rfl⟩
  | some a =>
    by_cases known : a ∈ c.base.architectures
    · refine .inl ⟨by rintro _ ⟨⟩; exact known, a, ?_⟩
      simp [targetArch, Config.selectArchitectures, known]
    · refine .inr ⟨a, rfl, known, ?_⟩
      simp [targetArch, Config.selectArchitectures, known, Work.exec_fail]

variable {β : Type}

/-- The gate of a command that is given no architecture. -/
theorem exec_soundGate (x : Context) (action : String) (next : Config → Work β) (s : Session) :
    (∃ c, Admits s.files x.project none c) ∨
      ∃ f text, Refusal s.files x.project action none f ∧
        (x.loadSound action >>= next).exec s = (.error f, s.logging text) := by
  rcases x.exec_loadSound action s with ⟨c, text, holds, sound, -⟩ | ⟨f, text, refusal, fails⟩
  · exact .inl ⟨c, holds, sound, nofun⟩
  · exact .inr ⟨f, text, refusal none, Work.exec_bind_error fails⟩

/-- The gate of a command that is given an architecture, or else takes the usual one. -/
theorem exec_targetGate (x : Context) (action : String) (arch : Option String)
    (next : Config → String → Work β) (s : Session) :
    (∃ c, Admits s.files x.project arch c) ∨
      ∃ f text, Refusal s.files x.project action arch f ∧
        (x.loadSound action >>= fun c => targetArch c arch >>= next c).exec s =
          (.error f, s.logging text) := by
  rcases x.exec_loadSound action s with
    ⟨c, text, holds, sound, loads⟩ | ⟨f, text, refusal, fails⟩
  · rcases exec_targetArch c arch (s.logging text) with
      ⟨configured, -⟩ | ⟨a, given, missing, refused⟩
    · exact .inl ⟨c, holds, sound, configured⟩
    · refine .inr ⟨_, text, .unconfigured holds sound given missing, ?_⟩
      rw [Work.exec_bind_ok loads]
      exact Work.exec_bind_error refused
  · exact .inr ⟨f, text, refusal arch, Work.exec_bind_error fails⟩

end Context

variable {request : Request}

/-- A request with a gate finds a configuration that is let through, or it is turned away there
and has done nothing but log. -/
theorem exec_perform_gated (demands : request.Demands action arch) (x : Context) (s : Session) :
    (∃ c, Admits s.files x.project arch c) ∨
      ∃ f text, Refusal s.files x.project action arch f ∧
        (perform x request).exec s = (.error f, s.logging text) := by
  cases demands with
  | build r => exact x.exec_soundGate "build" _ s
  | test => exact x.exec_targetGate "test" arch _ s
  | scan => exact x.exec_targetGate "scan" arch _ s
  | lock output => exact x.exec_soundGate "generate lockfile" _ s

/-- A build, a test, a scan or a lock whose configuration does not load, has an error or lacks the
architecture that is given is turned away, whatever else the command line says. It fails with the
reason for that, and the session behind it is a fresh one on the same files but for its log: no
command has been issued, no file has been changed, nothing is counted and nothing is printed. -/
theorem inadmissible_command_turned_away (around : Surroundings) (files : FileTree)
    (words : List String) {settings : Settings}
    (asked : parse words = .ok (settings, some request)) (demands : request.Demands action arch)
    (inadmissible : ∀ c, ¬ Admits files (Context.of around settings).project arch c) :
    ∃ f log, Refusal files (Context.of around settings).project action arch f ∧
      run around files words = ⟨1, some f.report, { files, logged := log }⟩ := by
  let start : Session := { files, logged := (settings.traceEndpoint.map traceWarning).getD "" }
  rcases exec_perform_gated demands (Context.of around settings) start with
    ⟨c, admits⟩ | ⟨f, text, refusal, fails⟩
  · exact absurd admits (inadmissible c)
  · refine ⟨f, start.logged ++ text, refusal, ?_⟩
    have ran : (perform (Context.of around settings) request).run.run start =
        (.error f, start.logging text) := fails
    have code : (if f.cause == .clockOverflow then 101 else 1) = 1 :=
      if_neg (by simpa using refusal.cause_ne)
    simp only [run, asked]
    rw [ran]
    simp only [code]
    rfl

/-! ### A scan for an architecture that is not configured -/

def gateText : String := "name: demo\nbase:\n  template: debian\n  architecture: [amd64]\n"

def gateDemo : Config where
  name := "demo"
  base := { template := "debian", architectures := ["amd64"] }

def gateFiles : FileTree where
  entries := [(["work"], .directory), (["work", "templates"], .directory),
    (["work", "templates", "base"], .directory),
    (["work", "templates", "base", "debian.Dockerfile"], .file "FROM debian".toUTF8 false),
    (["work", "image-foundry.yaml"], .file gateText.toUTF8 false)]

def gateSurroundings : Surroundings := ⟨⟨"/work"⟩, ⟨0, 0⟩, 1, "/usr/bin"⟩

def gateProject : Project := (Context.of gateSurroundings { dryRun := true }).project

theorem gateFiles_hold : gateFiles.HoldsConfig gateProject.configPath gateDemo :=
  ⟨by decide +kernel, gateText, by rfl, by decide +kernel⟩

theorem gateDemo_sound : (gateDemo.check gateProject gateFiles).errors = [] := by
  decide +kernel

theorem foreign_scan_turned_away :
    parse ["--dry-run", "scan", "--arch", "s390x"] =
        .ok ({ dryRun := true }, some (.scan (some "s390x"))) ∧
      (∀ c, ¬ Admits gateFiles gateProject (some "s390x") c) ∧
      ∃ log, run gateSurroundings gateFiles ["--dry-run", "scan", "--arch", "s390x"] =
        ⟨1, some "architecture 's390x' is not configured (configured: amd64)",
          { files := gateFiles, logged := log }⟩ := by
  have asked : parse ["--dry-run", "scan", "--arch", "s390x"] =
      .ok ({ dryRun := true }, some (.scan (some "s390x"))) := rfl
  have inadmissible (c : Config) : ¬ Admits gateFiles gateProject (some "s390x") c := by
    rintro ⟨holds, -, configured⟩
    obtain rfl := gateFiles_hold.unique holds
    exact absurd (configured "s390x" rfl) (by decide)
  obtain ⟨f, log, refusal, ran⟩ := inadmissible_command_turned_away gateSurroundings gateFiles
    _ asked (.scan (some "s390x")) inadmissible
  have reason : f.report = "architecture 's390x' is not configured (configured: amd64)" := by
    cases refusal with
    | unloadable unloadable => exact absurd gateFiles_hold unloadable.not_holds
    | unsound holds errors =>
      obtain rfl := gateFiles_hold.unique holds
      exact absurd gateDemo_sound errors
    | unconfigured holds _ given _ =>
      obtain rfl := gateFiles_hold.unique holds
      cases given
      decide +kernel
  rw [reason] at ran
  exact ⟨asked, inadmissible, log, ran⟩

end CommandLine
end ImagePipeline
