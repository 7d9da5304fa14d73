import ImagePipeline.Proofs.Build.Prefix
import ImagePipeline.Proofs.Metrics.Counts
import ImagePipeline.Proofs.Text.Pieces

/-! Metrics of a build. Every command of a build is counted once, under the name of its step, and
its failure with it; the step of an architecture counts the builds for that architecture and
nothing else. -/
namespace ImagePipeline

variable {α β : Type} {c : Config} {p : Project} {r : Runner} {o : BuildOptions} {s : Session}
  {push : Bool}

/-! ### Steps that are counted -/

/-- What a step adds to metrics, given what has passed for it. A clock that overflows stops the
work before the step is counted. -/
def Metrics.behind (m : Metrics) (taken : Step × Exchange) : Metrics :=
  if taken.2.failure? = some .clockOverflow then m
  else m.stop { step := taken.1.metric, failed := taken.2.failure?.isSome } 0

namespace Metrics

variable {taken : List (Step × Exchange)}

/-- Metrics behind steps none of which has overflowed the clock. -/
theorem counts_taken (m : Metrics) (ended : ∀ q ∈ taken, q.2.failure? ≠ some .clockOverflow) :
    (taken.foldl behind m).totalCalls = m.totalCalls + taken.length ∧
    (taken.foldl behind m).totalFailures =
      m.totalFailures + taken.countP (fun q => q.2.failure?.isSome) ∧
    ∀ name, (taken.foldl behind m).calls name =
      m.calls name + taken.countP fun q => q.1.metric == name := by
  induction taken generalizing m with
  | nil => exact ⟨rfl, rfl, fun _ => rfl⟩
  | cons q taken ih =>
    obtain ⟨here, there⟩ := List.forall_mem_cons.mp ended
    have step : m.behind q = m.stop ⟨q.1.metric, q.2.failure?.isSome⟩ 0 := if_neg here
    obtain ⟨calls, failures, named⟩ := ih (m.behind q) there
    rw [step] at calls failures named
    rw [List.foldl_cons, step]
    refine ⟨?_, ?_, fun name => ?_⟩
    · rw [calls, totalCalls_stop, List.length_cons]
      omega
    · rw [failures, totalFailures_stop, List.countP_cons]
      dsimp only
      omega
    · rw [named, calls_stop, List.countP_cons]
      simp only [beq_iff_eq, eq_comm (a := name)]
      omega

end Metrics

/-- The steps that work has taken, with what has passed for each: they are counted and nothing
else is, and one that fails is what the work fails with. -/
structure Tally (r : Runner) (allowed : Step → Prop) (s : Session)
    (run : Except Failure α × Session) (taken : List (Step × Exchange)) (as : List FileAction) :
    Prop where
  added : Adds r s run.2 (taken.map Prod.snd) as
  counted : run.2.metrics = taken.foldl Metrics.behind s.metrics
  issued : ∀ q ∈ taken, allowed q.1 ∧ q.2.command = q.1.command
  blamed : ∀ q ∈ taken, ∀ cause, q.2.failure? = some cause → causeOf run.1 = some cause
  once : taken.countP (fun q => q.2.failure?.isSome) ≤ 1

/-- Work from a session on that issues commands only for steps for which `allowed` holds, and
counts them. -/
def Counts (r : Runner) (allowed : Step → Prop) (t : Work α) (s : Session) : Prop :=
  ∃ taken as, Tally r allowed s (t.exec s) taken as

namespace Counts

variable {allowed : Step → Prop} {t : Work α} {f : α → Work β} {s' : Session}

/-- Work that issues no command. -/
theorem idle {result : Except Failure α} {as : List FileAction} (run : t.exec s = (result, s'))
    (added : Adds r s s' [] as) (same : s'.metrics = s.metrics) : Counts r allowed t s := by
  rw [Counts, run]
  exact ⟨[], as, added, same, List.forall_mem_nil _, List.forall_mem_nil _, Nat.zero_le 1⟩

theorem pure (a : α) : Counts r allowed (Pure.pure a : Work α) s :=
  idle (Work.exec_pure a s) (.nothing rfl rfl) rfl

theorem fail (cause : Cause) : Counts r allowed (Work.fail cause : Work α) s :=
  idle rfl (.nothing rfl rfl) rfl

theorem log (e : LogEvent) : Counts r allowed (Work.log e) s :=
  idle (Work.exec_log e s) (.nothing rfl rfl) rfl

theorem bind (first : Counts r allowed t s) (next : ∀ a s', Counts r allowed (f a) s') :
    Counts r allowed (t >>= f) s := by
  obtain ⟨taken, as, tally⟩ := first
  rcases run : t.exec s with ⟨result, middle⟩
  rw [run] at tally
  cases result with
  | error e =>
    rw [Counts, Work.exec_bind_error run]
    exact ⟨taken, as, tally.added, tally.counted, tally.issued, tally.blamed, tally.once⟩
  | ok a =>
    obtain ⟨more, bs, tally'⟩ := next a middle
    -- the work has gone on, so nothing has failed yet
    have unfailing : taken.countP (fun q => q.2.failure?.isSome) = 0 := by
      refine List.countP_eq_zero.mpr fun q member failed => ?_
      obtain ⟨cause, failure⟩ := Option.isSome_iff_exists.mp failed
      cases tally.blamed q member cause failure
    rw [Counts, Work.exec_bind_ok run]
    refine ⟨taken ++ more, as ++ bs, ?_, ?_, ?_, ?_, ?_⟩
    · rw [List.map_append]
      exact tally.added.trans tally'.added
    · rw [tally'.counted, tally.counted, List.foldl_append]
    · exact List.forall_mem_append.mpr ⟨tally.issued, tally'.issued⟩
    · refine List.forall_mem_append.mpr ⟨fun q member cause failure => ?_, tally'.blamed⟩
      cases tally.blamed q member cause failure
    · rw [List.countP_append, unfailing, Nat.zero_add]
      exact tally'.once

theorem within (context : String) (inner : Counts r allowed t s) :
    Counts r allowed (Work.within context t) s := by
  obtain ⟨taken, as, tally⟩ := inner
  have outer := Work.exec_within context t s
  rcases run : t.exec s with ⟨result, behind⟩
  rw [run] at tally outer
  cases result with
  | ok a | error e =>
    rw [Counts, outer]
    exact ⟨taken, as, tally.added, tally.counted, tally.issued, tally.blamed, tally.once⟩

theorem alter (q : Path) (change : FileTree → Except OsError Unit × FileTree) :
    Counts r allowed (Work.alter q change) s :=
  idle (Work.exec_alter q change s) (.altered rfl rfl) rfl

theorem ensureStateDir (p : Project) (sub : String) :
    Counts r allowed (p.ensureStateDir sub) s :=
  ((alter _ _).within _).bind fun _ _ => pure _

theorem perform {step : Step} (fits : allowed step) : Counts r allowed (r.perform step) s := by
  have run := r.exec_perform step s
  refine ⟨[(step, r.exchange s .shared step.command)], [], ?_⟩
  cases outcome : (r.exchange s .shared step.command).reply.outcome with
  | finished | failed | clockOverflow =>
    rw [outcome] at run
    rw [run]
    refine ⟨.exchanged rfl rfl, ?_, ?_, ?_, List.countP_le_length⟩
    · simp [Metrics.behind, Exchange.failure?, outcome, Session.counted, Session.behind]
    · exact List.forall_mem_singleton.mpr ⟨fits, rfl⟩
    · simp [Exchange.failure?, outcome, causeOf]

theorem performAll {steps : List Step} (fit : ∀ step ∈ steps, allowed step) :
    Counts r allowed (r.performAll steps) s := by
  induction steps generalizing s with
  | nil => exact pure ()
  | cons step steps ih =>
    obtain ⟨first, others⟩ := List.forall_mem_cons.mp fit
    exact (perform first).bind fun _ _ => ih others

end Counts

/-! ### The steps of a build -/

/-- A step for an architecture just if its command builds for it. -/
def Config.TellsBuilds (c : Config) (p : Project) (push : Bool) (step : Step) : Prop :=
  ∀ a, step.metric = "build:" ++ a ↔ step.command = c.buildCommand p a push

theorem buildCommand_injective {a b : String}
    (same : c.buildCommand p a push = c.buildCommand p b push) : a = b := by
  have words := congrArg Command.args same
  simp only [Config.buildCommand, List.cons_append, List.nil_append, List.cons.injEq] at words
  obtain ⟨-, -, -, platform, -⟩ := words
  unfold Config.platform at platform
  simpa using platform

theorem buildStep_tells (a : String) : c.TellsBuilds p push (c.buildStep p a push) := by
  intro b
  constructor
  · intro same
    have arch : a = b := by simpa [Config.buildStep] using same
    rw [arch]
    rfl
  · intro same
    rw [buildCommand_injective same]
    rfl

/-- A step of another program under a name of another kind. -/
theorem tells_of_other {step : Step} {rest : String} (kind program : String)
    (named : step.metric = kind ++ rest) (issued : step.command.program = program)
    (other : Text.clashes kind.toList "build:".toList = true) (apart : program ≠ "docker") :
    c.TellsBuilds p push step := by
  intro a
  constructor
  · intro same
    have chars := congrArg String.toList (named.symm.trans same)
    rw [String.toList_append, String.toList_append] at chars
    have front := Text.startsWith_append kind.toList rest.toList
    rw [chars, Text.startsWith_of_clash other] at front
    cases front
  · intro same
    rw [same] at issued
    exact absurd issued.symm apart

theorem hookSteps_tell (label script : String) :
    ∀ step ∈ hookSteps p label script, c.TellsBuilds p push step := by
  intro step member
  unfold hookSteps at member
  split at member
  · cases member
  · rw [List.mem_singleton.mp member]
    exact tells_of_other "hook:" "sh" rfl rfl (by decide) (by decide)

theorem sbomSteps_tell (b : BuiltImage) :
    ∀ step ∈ b.sbomSteps c p, c.TellsBuilds p push step := by
  intro step member
  unfold BuiltImage.sbomSteps at member
  split at member
  · obtain ⟨command, made, rfl⟩ := List.mem_map.mp member
    have syft : command.program = "syft" := by
      rcases List.mem_append.mp made with listed | required
      · obtain ⟨format, -, rfl⟩ := List.mem_map.mp listed
        rfl
      · split at required
        · rw [List.mem_singleton.mp required]
          rfl
        · cases required
    exact tells_of_other "sbom:" "syft" rfl syft (by decide) (by decide)
  · cases member

theorem releaseSteps_tell (b : BuiltImage) :
    ∀ step ∈ b.releaseSteps c p, c.TellsBuilds p push step := by
  intro step member
  rcases List.mem_append.mp member with front | attest
  · rcases List.mem_append.mp front with sbom | sign
    · exact sbomSteps_tell b step sbom
    · split at sign
      · rw [List.mem_singleton.mp sign]
        exact tells_of_other "sign:" "cosign" rfl rfl (by decide) (by decide)
      · cases sign
  · split at attest
    · rw [List.mem_singleton.mp attest]
      exact tells_of_other "attest:" "cosign" rfl rfl (by decide) (by decide)
    · cases attest

/-! ### A build -/

theorem readDigest_counts {allowed : Step → Prop} (arch : String) :
    Counts r allowed (p.readDigest arch) s := by
  obtain ⟨logged, run⟩ := exec_readDigest p arch s
  exact .idle run (.nothing rfl rfl) rfl

theorem buildImage_counts (arch : String) :
    Counts r (c.TellsBuilds p push) (buildImage c p r push arch) s := by
  unfold buildImage
  refine (Counts.perform (buildStep_tells arch)).bind fun _ s => ?_
  dsimp only
  split
  · exact (readDigest_counts arch).bind fun _ _ => .pure _
  · exact (Counts.pure _).bind fun _ _ => .pure _

theorem buildEach_counts (archs : List String) :
    Counts r (c.TellsBuilds p push) (buildEach c p r push archs) s := by
  induction archs generalizing s with
  | nil => exact .pure []
  | cons arch archs ih =>
    exact (buildImage_counts arch).bind fun _ _ => ih.bind fun _ _ => .pure _

theorem buildImages_counts :
    Counts r (c.TellsBuilds p o.push) (buildImages c p r o) s := by
  unfold buildImages
  split
  · exact .fail _
  · split
    · exact (Counts.ensureStateDir p "").bind fun _ _ => buildEach_counts _
    · exact buildEach_counts _

theorem publish_counts (images : List BuiltImage) :
    Counts r (c.TellsBuilds p push) (publish c p r images) s := by
  have tell : ∀ step ∈ images.flatMap (fun b => b.releaseSteps c p),
      c.TellsBuilds p push step := by
    intro step member
    obtain ⟨b, -, inside⟩ := List.mem_flatMap.mp member
    exact releaseSteps_tell b step inside
  unfold publish
  split
  · split
    · exact (Counts.ensureStateDir p "sbom").bind fun _ _ => .performAll tell
    · exact .performAll tell
  · exact .pure ()

theorem runBuild_counts : Counts r (c.TellsBuilds p o.push) (runBuild c p r o) s := by
  have last (images : List BuiltImage) (s : Session) :
      Counts r (c.TellsBuilds p o.push)
        (r.performAll (hookSteps p "post-build" c.custom.postBuild) >>= fun _ =>
          (pure images : Work (List BuiltImage))) s :=
    (Counts.performAll (hookSteps_tell _ _)).bind fun _ _ => .pure images
  unfold runBuild
  refine (Counts.performAll (hookSteps_tell _ _)).bind fun _ s => ?_
  refine buildImages_counts.bind fun images s => ?_
  dsimp only
  split
  · exact (publish_counts images).bind fun _ s => last images s
  · split
    · exact (Counts.log _).bind fun _ s => last images s
    · exact last images s

/-- Metrics that count the commands of a build and those that fail, and under the name of an
architecture the builds for it. -/
structure Metrics.CountBuild (m : Metrics) (c : Config) (p : Project) (push : Bool)
    (trace : List Exchange) : Prop where
  calls : m.totalCalls = trace.length
  failures : m.totalFailures = trace.countP fun x => x.failure?.isSome
  failedOnce : m.totalFailures ≤ 1
  builds : ∀ a, m.calls ("build:" ++ a) =
    (trace.map Exchange.command).count (c.buildCommand p a push)

/-- A build that returns, with or without a failure, has counted every command that it has issued
once, and has counted those that have failed as failed, of which there is one at most. The step
of an architecture counts the builds for this architecture, however often it is listed. -/
theorem build_metrics_count_commands (c : Config) (p : Project) (r : Runner) (o : BuildOptions)
    (s : Session) (fresh : s.metrics = {})
    (returned : causeOf ((runBuild c p r o).exec s).1 ≠ some .clockOverflow) :
    ∃ trace changes, Adds r s ((runBuild c p r o).exec s).2 trace changes ∧
      ((runBuild c p r o).exec s).2.metrics.CountBuild c p o.push trace := by
  obtain ⟨taken, changes, tally⟩ := runBuild_counts (c := c) (p := p) (r := r) (o := o) (s := s)
  have ended : ∀ q ∈ taken, q.2.failure? ≠ some .clockOverflow :=
    fun q member overflow => returned (tally.blamed q member _ overflow)
  obtain ⟨calls, failures, named⟩ := s.metrics.counts_taken ended
  rw [← tally.counted, fresh] at calls failures named
  refine ⟨taken.map Prod.snd, changes, tally.added, ⟨?_, ?_, ?_, fun a => ?_⟩⟩
  · rw [calls, List.length_map]
    exact Nat.zero_add _
  · rw [failures, List.countP_map]
    exact Nat.zero_add _
  · rw [failures]
    exact (Nat.zero_add _).trans_le tally.once
  · rw [named, List.map_map, List.count_eq_countP, List.countP_map]
    refine (Nat.zero_add _).trans (List.countP_congr fun q member => ?_)
    obtain ⟨tells, command⟩ := tally.issued q member
    simp only [Function.comp_apply, beq_iff_eq, command]
    exact tells a

/-- A project with an architecture that is listed twice. -/
def repeatedDemo : Config :=
  { demo with base := { template := "debian", architectures := ["amd64", "amd64"] } }

/-- Two builds for one architecture are counted under one name, and the signature that fails ends
the build. -/
theorem repeatedDemo_counted :
    causeOf ((runBuild repeatedDemo demoProject (rehearsal "cosign") {}).exec {}).1 ≠
        some .clockOverflow ∧
      ((runBuild repeatedDemo demoProject (rehearsal "cosign") {}).exec {}).2.metrics.calls
        "build:amd64" = 2 ∧
      ∃ trace changes,
        Adds (rehearsal "cosign") {}
          ((runBuild repeatedDemo demoProject (rehearsal "cosign") {}).exec {}).2 trace changes ∧
        ((runBuild repeatedDemo demoProject (rehearsal "cosign") {}).exec {}).2.metrics.CountBuild
          repeatedDemo demoProject true trace := by
  have returned : causeOf ((runBuild repeatedDemo demoProject (rehearsal "cosign") {}).exec {}).1 ≠
      some .clockOverflow := by decide +kernel
  refine ⟨returned, by decide +kernel, ?_⟩
  exact build_metrics_count_commands repeatedDemo demoProject (rehearsal "cosign") {} {} rfl
    returned

end ImagePipeline
