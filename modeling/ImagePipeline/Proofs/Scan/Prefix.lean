import ImagePipeline.Proofs.Files.Writing
import ImagePipeline.Proofs.Rehearsal.Files
import ImagePipeline.Proofs.Scan.Plan
import ImagePipeline.Runner.Scripted

/-! The commands of the scans are a prefix of their plan, which ends with the first command that
fails, and the policies judge the description of the image that was taken in the same run. -/
namespace ImagePipeline

variable {c : Config} {p : Project} {r : Runner} {s : Session} {image : String}

/-! ### What the commands of each stage are -/

theorem vulnerabilityPlan_program {x : Command}
    (member : x ∈ (c.vulnerabilitySteps p image).map Step.command) : x.program ≠ "opa" := by
  rw [Config.vulnerabilitySteps_commands] at member
  split at member
  · rw [List.mem_singleton.mp member]
    change "trivy" ≠ "opa"
    decide
  · cases member

theorem inspection_program : (p.inspection image).program ≠ "opa" := by
  change "docker" ≠ "opa"
  decide

theorem judgement_program {standards : List ComplianceStandard} {x : Command}
    (member : x ∈ standards.map p.judgement) : x.program = "opa" := by
  obtain ⟨standard, -, rfl⟩ := List.mem_map.mp member
  rfl

theorem analyzer_program {analyzers : List Analyzer} {x : Command}
    (member : x ∈ analyzers.map (c.analysis p)) : x.program ≠ "opa" := by
  obtain ⟨analyzer, -, rfl⟩ := List.mem_map.mp member
  have programs : ∀ analyzer : Analyzer, (c.analysis p analyzer).program = analyzer.name := by
    rintro (_ | _ | _ | _) <;> rfl
  rw [programs]
  cases analyzer <;> decide

theorem codePlan_program {x : Command} (member : x ∈ (c.codeSteps p).map Step.command) :
    x.program ≠ "opa" := by
  rw [Config.codeSteps_commands] at member
  split at member
  · obtain ⟨language, -, query⟩ := List.mem_flatMap.mp member
    have codeql : x.program = "codeql" := by
      rcases List.mem_pair.mp query with rfl | rfl <;> rfl
    rw [codeql]
    decide
  · cases member

/-! ### What the policies judge -/

/-- Where the first policy is judged, the input of the policies holds what the command before it
has put out, which describes the image. -/
def JudgesDescription (p : Project) (image : String) (xs : List Exchange) : Prop :=
  ∀ before x after, xs = before ++ x :: after → x.command.program = "opa" →
    (∀ y ∈ before, y.command.program ≠ "opa") →
    ∃ front inspected output, before = front ++ [inspected] ∧
      inspected.mode = .captured ∧ inspected.command = p.inspection image ∧
      inspected.reply.outcome = .finished output ∧
      x.found.read (p.path ".foundry/compliance-input.json") = .ok output.toUTF8

namespace JudgesDescription

variable {xs ys : List Exchange}

theorem of_none (unjudged : ∀ x ∈ xs, x.command.program ≠ "opa") :
    JudgesDescription p image xs := by
  rintro before x after rfl policy
  exact absurd policy (unjudged x (by simp))

theorem behind (unjudged : ∀ x ∈ xs, x.command.program ≠ "opa")
    (judges : JudgesDescription p image ys) : JudgesDescription p image (xs ++ ys) := by
  intro before x after cut policy first
  rcases List.append_eq_append_iff.mp cut with ⟨between, rfl, rest⟩ | ⟨between, inside, rest⟩
  · obtain ⟨front, inspected, output, rfl, described⟩ := judges between x after rest policy
      fun y member => first y (List.mem_append_right _ member)
    exact ⟨xs ++ front, inspected, output, (List.append_assoc ..).symm, described⟩
  · rcases List.cons_eq_append_iff.mp rest with ⟨rfl, start⟩ | ⟨later, rfl, -⟩
    · obtain ⟨front, inspected, output, nothing, -⟩ := judges [] x after start policy (by simp)
      simp at nothing
    · exact absurd policy (unjudged x (by simp [inside]))

theorem before (judges : JudgesDescription p image xs)
    (unjudged : ∀ y ∈ ys, y.command.program ≠ "opa") : JudgesDescription p image (xs ++ ys) := by
  intro before x after cut policy first
  rcases List.append_eq_append_iff.mp cut with ⟨between, -, rest⟩ | ⟨between, inside, rest⟩
  · exact absurd policy (unjudged x (by simp [rest]))
  · rcases List.cons_eq_append_iff.mp rest with ⟨rfl, start⟩ | ⟨later, rfl, -⟩
    · exact absurd policy (unjudged x (by simp [start]))
    · exact judges before x later inside policy first

/-- Policies that are judged where a description has left them its output. -/
theorem of_described {inspected : Exchange} {output : String} {t t' : FileTree}
    (captured : inspected.mode = .captured) (inspects : inspected.command = p.inspection image)
    (finished : inspected.reply.outcome = .finished output)
    (held : t.read (p.path complianceInputFile) = .ok output.toUTF8) (handed : Handed t ys t')
    (policies : ∀ y ∈ ys, y.command.program = "opa") :
    JudgesDescription p image (inspected :: ys) := by
  intro before x after cut policy none
  rcases List.cons_eq_append_iff.mp cut with ⟨rfl, here⟩ | ⟨between, rfl, behind⟩
  · obtain ⟨rfl, -⟩ := List.cons_eq_cons.mp here
    rw [inspects] at policy
    exact absurd policy inspection_program
  · cases between with
    | nil =>
      rw [behind] at handed
      exact ⟨[], inspected, output, rfl, captured, inspects, finished, handed.1 ▸ held⟩
    | cons y between => exact absurd (policies y (by simp [behind])) (none y (by simp))

end JudgesDescription

/-- A description of the image that was taken stands in the input of the policies. -/
theorem describeImage_leaves {s' : Session} (executing : r.executes = true)
    (run : (describeImage p r image).exec s = (.ok (), s')) :
    ∃ inspected output actions, Adds r s s' [inspected] actions ∧ inspected.mode = .captured ∧
      inspected.command = p.inspection image ∧ inspected.reply.outcome = .finished output ∧
      s'.files.read (p.path complianceInputFile) = .ok output.toUTF8 := by
  unfold describeImage at run
  obtain ⟨output, described, captured, run⟩ := Work.ok_of_bind run
  obtain ⟨finished, rfl⟩ := Runner.ok_of_capture (Work.ok_of_within captured)
  rw [if_pos executing] at run
  obtain ⟨directory, made, making, run⟩ := Work.ok_of_bind run
  obtain ⟨written, exchanges, actions⟩ := Work.ok_of_writeText (Work.ok_of_within run)
  have quiet : Pursues r (fun _ => True) [] (p.ensureStateDir "")
      (s.behind (r.exchange s .captured (p.inspectCommand image))) := .ensureStateDir p "" trivial
  obtain ⟨xs, as, added, follows, -⟩ := quiet
  rw [making] at added
  obtain rfl : xs = [] := by simpa using follows.isPrefix
  have first : Adds r s (s.behind (r.exchange s .captured (p.inspectCommand image))) _ [] :=
    .exchanged rfl rfl
  have last : Adds r made s' [] _ := .altered exchanges actions
  exact ⟨_, output, _, first.trans (added.trans last), rfl, rfl, finished,
    FileTree.read_of_write written⟩

theorem checkCompliance_yields (known : c.ScansKnown) (executing : r.executes = true) :
    Yields r (checkCompliance c p r image) s fun _ xs => JudgesDescription p image xs := by
  unfold checkCompliance
  split
  · rename_i enabled
    suffices inner : Yields r
        (do describeImage p r image; judgeEach p r c.security.compliance.standards) s
          fun _ xs => JudgesDescription p image xs from
      inner.within (fun _ _ judges => judges) fun _ _ judges => judges
    obtain ⟨xs, as, added, follows, -⟩ := describeImage_pursues (p := p) (r := r) (s := s) image
    rcases run : (describeImage p r image).exec s with ⟨result, middle⟩
    rw [run] at added
    cases result with
    | error e =>
      refine .of_exec (Work.exec_bind_error run) added (.of_none fun x member => ?_)
      rw [List.mem_singleton.mp (follows.isPrefix.subset (List.mem_map_of_mem member))]
      exact inspection_program
    | ok done =>
      obtain ⟨inspected, output, _, first, captured, inspects, finished, held⟩ :=
        describeImage_leaves executing run
      obtain ⟨ys, more, handed⟩ :=
        judgeEach_handsOff (p := p) (r := r) c.security.compliance.standards middle
      have judged : Pursues r (fun _ => True) _
          (judgeEach p r c.security.compliance.standards) middle :=
        judgeEach_pursues (known.standards enabled)
      obtain ⟨zs, _, again, judgements, -⟩ := judged
      obtain ⟨rfl, -⟩ := more.unique again
      rw [Yields, Work.exec_bind_ok run]
      refine ⟨[inspected] ++ ys, _, first.trans more, ?_⟩
      exact .of_described captured inspects finished held handed fun y member =>
        judgement_program (judgements.isPrefix.subset (List.mem_map_of_mem member))
  · exact .pure (.of_none (by simp))

theorem runScans_yields (known : c.ScansKnown) (executing : r.executes = true) (arch : String) :
    Yields r (runScans c p r arch) s fun _ xs => JudgesDescription p (c.imageReference arch) xs := by
  have scanned : Pursues r (fun _ => True) _
      (r.performAll (c.vulnerabilitySteps p (c.imageReference arch))) s := .performAll _
  have unjudged (s : Session) : Yields r
      (do analyzeSources c p r; r.performAll (c.codeSteps p)) s fun _ xs =>
        ∀ x ∈ xs, x.command.program ≠ "opa" := by
    have rest : Pursues r (fun _ => True) _
        (do analyzeSources c p r; r.performAll (c.codeSteps p)) s :=
      (analyzeSources_pursues known).bind fun _ _ _ => .performAll _
    refine (Yields.of_pursues rest).mono fun _ xs isPrefix x member => ?_
    rcases List.mem_append.mp (isPrefix.subset (List.mem_map_of_mem member)) with source | code
    · split at source
      · exact analyzer_program source
      · cases source
    · exact codePlan_program code
  refine (Yields.of_pursues scanned).bind (fun e xs isPrefix => ?_) fun _ s' xs isPrefix => ?_
  · exact .of_none fun x member =>
      vulnerabilityPlan_program (isPrefix.subset (List.mem_map_of_mem member))
  · have front : ∀ x ∈ xs, x.command.program ≠ "opa" := fun x member =>
      vulnerabilityPlan_program (isPrefix.subset (List.mem_map_of_mem member))
    refine (checkCompliance_yields known executing).bind (fun e ys judges => judges.behind front) ?_
    intro _ s'' ys judges
    exact (unjudged s'').mono fun _ zs none => (judges.before none).behind front

/-- Names that are all known stand for one thing each, in their order. -/
theorem filterMap_each {α β : Type} {f : α → Option β} {names : List α}
    (known : ∀ name ∈ names, (f name).isSome) : (names.filterMap f).map some = names.map f := by
  induction names with
  | nil => rfl
  | cons name names ih =>
    obtain ⟨first, others⟩ := List.forall_mem_cons.mp known
    obtain ⟨b, found⟩ := Option.isSome_iff_exists.mp first
    rw [List.filterMap_cons_some found, List.map_cons, List.map_cons, ih others, found]

/-- The commands of scans whose standards and analyzers are known are a prefix of their plan,
which has one command for each of these. They stop with the first that fails, and its failure is
that of the scans; if no change of files fails, the scans go well just if the whole plan is issued
and succeeds. Where commands take effect, the first policy finds what was captured of the image in
the same run. -/
theorem runScans_issues_prefix (c : Config) (p : Project) (r : Runner) (arch : String)
    (s : Session) (known : c.ScansKnown) :
    ∃ trace changes,
      Adds r s ((runScans c p r arch).exec s).2 trace changes ∧
      (∀ a ∈ changes, MadeByScan p r a.path) ∧
      (c.security.compliance.enabled = true →
        (c.security.compliance.standards.filterMap ComplianceStandard.ofName?).map some =
          c.security.compliance.standards.map ComplianceStandard.ofName?) ∧
      (c.security.sast.enabled = true →
        (c.security.sast.tools.filterMap Analyzer.ofName?).map some =
          c.security.sast.tools.map Analyzer.ofName?) ∧
      trace.map Exchange.command <+: c.scanPlan p arch ∧
      (∀ x ∈ trace.dropLast, x.failure? = none) ∧
      (∀ x ∈ trace, ∀ cause, x.failure? = some cause →
        ∃ f, ((runScans c p r arch).exec s).1 = .error f ∧ f.cause = cause) ∧
      ((∀ a ∈ changes, a.failure? = none) →
        (((runScans c p r arch).exec s).1 = .ok () ↔
          trace.map Exchange.command = c.scanPlan p arch ∧ ∀ x ∈ trace, x.failure? = none)) ∧
      (r.executes = true → JudgesDescription p (c.imageReference arch) trace) := by
  obtain ⟨trace, changes, added, follows, touched⟩ :=
    runScans_pursues (p := p) (r := r) (s := s) known arch
  refine ⟨trace, changes, added, touched, fun enabled => filterMap_each (known.standards enabled),
    fun enabled => filterMap_each (known.analyzers enabled), follows.isPrefix,
    follows.succeeded_dropLast, ?_, ?_, ?_⟩
  · intro x member cause failure
    have stopped := follows.stopped_by member failure
    cases result : ((runScans c p r arch).exec s).1 with
    | ok done =>
      rw [result] at stopped
      cases stopped
    | error f =>
      rw [result] at stopped
      exact ⟨f, rfl, Option.some.inj stopped⟩
  · intro changed
    rw [← follows.ended_iff changed]
    cases ((runScans c p r arch).exec s).1 <;> simp [causeOf]
  · intro executing
    obtain ⟨xs, as, again, judges⟩ := runScans_yields (p := p) (s := s) known executing arch
    rw [(added.unique again).1]
    exact judges

/-- A project whose images are scanned in every way. -/
def scanDemo : Config :=
  { demo with
    security := {
      trivy := { enabled := true }
      compliance := { enabled := true, standards := ["cis", " PCI-DSS"] }
      sast := { enabled := true, tools := ["hadolint"] }
      codeql := { enabled := true, languages := ["go"] } } }

theorem scanDemo_known : scanDemo.ScansKnown where
  standards _ := by decide +kernel
  analyzers _ := by decide +kernel

/-- Describes every image, and finds a violation of one policy. -/
def violatingRunner : Runner :=
  scriptedRunner true
    [{ fragment := "docker image inspect", output := "[]" },
      { fragment := "pci-dss", failure := some (.exit 1) }]

/-- A violation of the second policy ends the scans, and the first one has judged what was
described. -/
theorem scanDemo_issues_prefix :
    scanDemo.ScansKnown ∧ ∃ trace,
      ((runScans scanDemo demoProject violatingRunner "amd64").exec {}).2.issued =
        trace.map Exchange.command ∧
      trace.map Exchange.command <+: scanDemo.scanPlan demoProject "amd64" ∧
      trace.length = 4 ∧
      JudgesDescription demoProject (scanDemo.imageReference "amd64") trace := by
  obtain ⟨trace, changes, added, -, -, -, isPrefix, -, -, -, judges⟩ :=
    runScans_issues_prefix scanDemo demoProject violatingRunner "amd64" {} scanDemo_known
  have length : ((runScans scanDemo demoProject violatingRunner "amd64").exec {}).2.issued.length =
      4 := by decide +kernel
  refine ⟨scanDemo_known, trace, added.issued, isPrefix, ?_, judges rfl⟩
  rw [added.issued] at length
  simpa [Session.issued] using length

/-- A project whose images are scanned for vulnerabilities only. -/
def trivyDemo : Config := { demo with security := { trivy := { enabled := true } } }

/-- Scans whose last command fails have issued their whole plan, and fail all the same. -/
theorem whole_plan_of_failed_scan :
    trivyDemo.ScansKnown ∧
    ((runScans trivyDemo demoProject (rehearsal "trivy") "amd64").exec {}).2.issued =
      trivyDemo.scanPlan demoProject "amd64" ∧
    ∃ f, ((runScans trivyDemo demoProject (rehearsal "trivy") "amd64").exec {}).1 = .error f :=
  ⟨⟨nofun, nofun⟩, by decide +kernel, _, rfl⟩

end ImagePipeline
