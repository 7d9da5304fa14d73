import ImagePipeline.Proofs.Config.Following
import ImagePipeline.Proofs.Config.Removal

/-! Each section of a configuration is read from a revision of its document as it was, without what
is gone. Keys that a section does not know and the order of its keys make no difference. -/
namespace ImagePipeline

open Yaml (Document Node)

theorem ImageName.follows : FollowsRevisions schema ofNode? without {} := by
  refine .of_fields (by decide) (fun d d' gone entries entries' => ?_) ?_
  refine .next follows_text fun name => ?_
  refine .next follows_text fun tag => ?_
  refine .next follows_text fun registry => ?_
  refine .next follows_text fun owner => ?_
  · exact .done rfl
  · simp [without]

theorem BaseChoice.follows : FollowsRevisions schema ofNode? without {} := by
  refine .of_fields (by decide) (fun d d' gone entries entries' => ?_) ?_
  refine .next follows_text fun template => ?_
  refine .next follows_texts fun architectures => ?_
  · exact .done rfl
  · simp [without]

theorem Tool.follows : FollowsRevisions schema ofNode? without {} := by
  refine .of_fields (by decide) (fun d d' gone entries entries' => ?_) ?_
  refine .next follows_bool fun install => ?_
  refine .next follows_text fun version => ?_
  · exact .done rfl
  · simp [without]

/-! ### Tools -/

namespace ToolSelection

variable {d d' : Document} {n n' : Node}

theorem mapM_named {entries : List (String × Node)} {l : List (String × Tool)} :
    (entries.mapM fun (name, node) => (Tool.ofNode? d node).map fun t => (name, t)) = some l ↔
      entries.map (fun e => (e.1, Tool.ofNode? d e.2)) = l.map fun e => (e.1, some e.2) := by
  induction entries generalizing l with
  | nil => cases l <;> simp
  | cons e entries ih =>
    rw [List.mapM_cons]
    constructor
    · intro found
      obtain ⟨first, here, found⟩ := Option.bind_eq_some_iff.mp found
      obtain ⟨others, behind, same⟩ := Option.bind_eq_some_iff.mp found
      obtain ⟨t, read, rfl⟩ := Option.map_eq_some_iff.mp here
      cases same
      rw [List.map_cons, List.map_cons, read, ih.mp behind]
    · intro same
      cases l with
      | nil => cases same
      | cons f l =>
        obtain ⟨first, others⟩ := List.cons.inj same
        obtain ⟨name, read⟩ := Prod.mk.inj first
        obtain ⟨key, node⟩ := e
        obtain ⟨other, t⟩ := f
        change key = other at name
        change Tool.ofNode? d node = some t at read
        subst name
        dsimp only
        rw [ih.mpr others, read]
        rfl

theorem exists_named {entries : List (String × Node)}
    (each : ∀ e ∈ entries, (Tool.ofNode? d e.2).isSome = true) :
    ∃ l : List (String × Tool),
      entries.map (fun e => (e.1, Tool.ofNode? d e.2)) = l.map fun e => (e.1, some e.2) := by
  induction entries with
  | nil => exact ⟨[], rfl⟩
  | cons e entries ih =>
    obtain ⟨first, others⟩ := List.forall_mem_cons.mp each
    obtain ⟨t, read⟩ := Option.isSome_iff_exists.mp first
    obtain ⟨l, named⟩ := ih others
    exact ⟨(e.1, t) :: l, by rw [List.map_cons, List.map_cons, named, read]⟩

/-- Of the tools of one name the last one counts. -/
theorem get?_ofList_named {entries : List (String × Node)} {l : List (String × Tool)}
    (named : entries.map (fun e => (e.1, Tool.ofNode? d e.2)) = l.map fun e => (e.1, some e.2))
    (name : String) :
    ((OrderedMap.ofList l).get? name).map some =
      ((entries.filter fun e => e.1 == name).getLast?).map fun e => Tool.ofNode? d e.2 := by
  have last := congrArg (fun k => ((k.filter fun e => e.1 == name).getLast?).map Prod.snd) named
  simp only [List.filter_map, List.getLast?_map, Option.map_map] at last
  rw [OrderedMap.get?_ofList, Option.map_map]
  exact last.symm

theorem toolsOfNode?_eq_some_iff {m : OrderedMap Tool} :
    toolsOfNode? d n = some m ↔ ∃ entries, d.fields? n = some entries ∧
      (∀ e ∈ entries, (Tool.ofNode? d e.2).isSome = true) ∧
      ∀ name, (m.get? name).map some =
        ((entries.filter fun e => e.1 == name).getLast?).map fun e => Tool.ofNode? d e.2 := by
  constructor
  · intro read
    obtain ⟨entries, here, read⟩ := Option.bind_eq_some_iff.mp read
    obtain ⟨l, found, same⟩ := Option.bind_eq_some_iff.mp read
    cases same
    have named := mapM_named.mp found
    refine ⟨entries, here, fun e member => ?_, get?_ofList_named named⟩
    have there := List.mem_map_of_mem (f := fun e => (e.1, Tool.ofNode? d e.2)) member
    rw [named] at there
    obtain ⟨f, -, same⟩ := List.mem_map.mp there
    rw [← (Prod.mk.inj same).2]
    rfl
  · rintro ⟨entries, here, each, last⟩
    obtain ⟨l, named⟩ := exists_named each
    have whole : OrderedMap.ofList l = m := by
      refine OrderedMap.eq_of_get? fun name => ?_
      refine Option.map_inj_right (fun _ _ => Option.some.inj) |>.mp ?_
      rw [get?_ofList_named named, last]
    rw [toolsOfNode?, here, Option.bind_eq_bind, Option.bind_some, mapM_named.mpr named]
    exact congrArg some whole

section Table

variable {gone : Removal} {entries entries' : List (String × Node)} {kept : List KeptEntry}

/-- A tool that stays is read in both documents. -/
def Carried (d d' : Document) (gone : Removal) (kept : List KeptEntry) : Prop :=
  ∀ e ∈ kept, ∃ t, Tool.ofNode? d e.old = some t ∧
    Tool.ofNode? d' e.new = some (t.without (gone.below e.key))

theorem carried_of_revised (each : ∀ e ∈ entries, (Tool.ofNode? d e.2).isSome = true)
    (stays : (entries.filter fun e => !gone [e.1]) = kept.map KeptEntry.before)
    (inside : ∀ e ∈ kept, Revised d d' Tool.schema (gone.below e.key) e.old e.new) :
    Carried d d' gone kept := by
  intro e member
  have inOld := List.mem_map_of_mem (f := KeptEntry.before) member
  rw [← stays] at inOld
  obtain ⟨t, old⟩ := Option.isSome_iff_exists.mp (each _ (List.mem_of_mem_filter inOld))
  exact ⟨t, old, Tool.follows.revised (inside e member) t old⟩

/-- The last tool of a name that stays is the last one in the revision. -/
theorem get?_toolsWithout {m : OrderedMap Tool} (carried : Carried d d' gone kept)
    (stays : (entries.filter fun e => !gone [e.1]) = kept.map KeptEntry.before)
    (order : ∀ name, (entries'.filter fun e => e.1 == name) =
      (kept.map KeptEntry.after).filter fun e => e.1 == name)
    (last : ∀ name, (m.get? name).map some =
      ((entries.filter fun e => e.1 == name).getLast?).map fun e => Tool.ofNode? d e.2)
    (name : String) :
    ((toolsWithout gone m).get? name).map some =
      ((entries'.filter fun e => e.1 == name).getLast?).map fun e => Tool.ofNode? d' e.2 := by
  have own : (kept.filter fun e => e.key == name).map KeptEntry.before =
      if gone [name] then [] else entries.filter fun e => e.1 == name := filter_key_of_kept stays
  have revision : (entries'.filter fun e => e.1 == name) =
      (kept.filter fun e => e.key == name).map KeptEntry.after := by
    rw [order, List.filter_map]
    rfl
  rw [revision, List.getLast?_map, Option.map_map, toolsWithout, OrderedMap.get?_restrict]
  cases left : gone [name] with
  | true =>
    -- No entry of the name stays, and the map without it has none either.
    rw [left, if_pos rfl, List.map_eq_nil_iff] at own
    rw [own]
    rfl
  | false =>
    have former := last name
    rw [left, if_neg Bool.false_ne_true] at own
    rw [← own, List.getLast?_map, Option.map_map] at former
    cases counted : (kept.filter fun e => e.key == name).getLast? with
    | none =>
      rw [counted, Option.map_none, Option.map_eq_none_iff] at former
      rw [former]
      rfl
    | some e =>
      obtain ⟨inKept, same⟩ := List.mem_filter.mp (List.mem_of_getLast? counted)
      obtain ⟨t, old, new⟩ := carried e inKept
      rw [beq_iff_eq] at same
      subst same
      rw [counted, Option.map_some, Function.comp_apply, KeptEntry.before, old] at former
      obtain ⟨u, present, same⟩ := Option.map_eq_some_iff.mp former
      cases same
      rw [present]
      exact congrArg some new.symm

theorem follows_tools : FollowsRevisions (.table Tool.schema) toolsOfNode? toolsWithout .empty where
  revised revised := by
    intro m read
    obtain ⟨_, found, each, last⟩ := toolsOfNode?_eq_some_iff.mp read
    cases revised with
    | @table _ _ _ _ entries entries' kept here there stays order inside =>
      rw [here] at found
      cases found
      have carried := carried_of_revised each stays inside
      refine toolsOfNode?_eq_some_iff.mpr
        ⟨entries', there, fun e member => ?_, get?_toolsWithout carried stays order last⟩
      have own : e ∈ entries'.filter fun f => f.1 == e.1 := by simp [member]
      rw [order, List.mem_filter] at own
      obtain ⟨k, inKept, rfl⟩ := List.mem_map.mp own.1
      obtain ⟨t, -, new⟩ := carried k inKept
      exact Option.isSome_iff_exists.mpr ⟨_, new⟩
  revisable gone read := by
    obtain ⟨entries, here, each, -⟩ := toolsOfNode?_eq_some_iff.mp read
    refine Revised.exists_table here fun e member => ?_
    obtain ⟨t, found⟩ := Option.isSome_iff_exists.mp (each e member)
    exact Tool.follows.revisable _ found
  absent gone := rfl

end Table

theorem follows : FollowsRevisions schema ofNode? without {} := by
  refine .of_fields (by decide) (fun d d' gone entries entries' => ?_) ?_
  refine .next follows_tools fun languages => ?_
  refine .next follows_tools fun security => ?_
  refine .next follows_tools fun devops => ?_
  refine .next follows_texts fun packages => ?_
  · exact .done rfl
  · simp [without, follows_tools.absent]

end ToolSelection

/-! ### Scans, tests and publication -/

theorem VulnerabilityScan.follows : FollowsRevisions schema ofNode? without {} := by
  refine .of_fields (by decide) (fun d d' gone entries entries' => ?_) ?_
  refine .next follows_bool fun enabled => ?_
  refine .next follows_text fun severity => ?_
  refine .next (follows_int32 1) fun exitCode => ?_
  refine .next follows_bool fun ignoreUnfixed => ?_
  · exact .done rfl
  · simp [without]

theorem follows_switchAndNames {key : String} (other : "enabled" ≠ key) :
    FollowsRevisions (switchSchema key) (fun d n => switchAndNames d n key)
      (fun gone s => (gone.field "enabled" false s.1, gone.field key [] s.2)) (false, []) := by
  refine .of_fields (by simp [other]) (fun d d' gone entries entries' => ?_) ?_
  refine .next follows_bool fun enabled => ?_
  refine .next follows_texts fun names => ?_
  · exact .done rfl
  · simp

theorem follows_switchAndText {key : String} (other : "enabled" ≠ key) :
    FollowsRevisions (switchSchema key) (fun d n => switchAndText d n key)
      (fun gone s => (gone.field "enabled" false s.1, gone.field key "" s.2)) (false, "") := by
  refine .of_fields (by simp [other]) (fun d d' gone entries entries' => ?_) ?_
  refine .next follows_bool fun enabled => ?_
  refine .next follows_text fun text => ?_
  · exact .done rfl
  · simp

theorem CodeAnalysis.follows : FollowsRevisions (switchSchema "languages")
    (fun d n => (switchAndNames d n "languages").map fun (e, l) => ⟨e, l⟩) without {} :=
  (follows_switchAndNames (by decide)).map fun _ _ => rfl

theorem Compliance.follows : FollowsRevisions (switchSchema "standards")
    (fun d n => (switchAndNames d n "standards").map fun (e, l) => ⟨e, l⟩) without {} :=
  (follows_switchAndNames (by decide)).map fun _ _ => rfl

theorem SourceAnalysis.follows : FollowsRevisions (switchSchema "tools")
    (fun d n => (switchAndNames d n "tools").map fun (e, l) => ⟨e, l⟩) without {} :=
  (follows_switchAndNames (by decide)).map fun _ _ => rfl

theorem Security.follows : FollowsRevisions schema ofNode? without {} := by
  refine .of_fields (by decide) (fun d d' gone entries entries' => ?_) ?_
  refine .next VulnerabilityScan.follows fun trivy => ?_
  refine .next CodeAnalysis.follows fun codeql => ?_
  refine .next Compliance.follows fun compliance => ?_
  refine .next SourceAnalysis.follows fun sast => ?_
  · exact .done rfl
  · simp [without, VulnerabilityScan.follows.absent, CodeAnalysis.follows.absent,
      Compliance.follows.absent, SourceAnalysis.follows.absent]

theorem Optimization.follows : FollowsRevisions schema ofNode? without {} := by
  refine .of_fields (by decide) (fun d d' gone entries entries' => ?_) ?_
  refine .next follows_bool fun multiStage => ?_
  refine .next follows_bool fun cacheLayers => ?_
  refine .next follows_bool fun minify => ?_
  refine .next follows_bool fun stripDebug => ?_
  · exact .done rfl
  · simp [without]

theorem StructureTests.follows : FollowsRevisions (switchSchema "config")
    (fun d n => (switchAndText d n "config").map fun (e, t) => ⟨e, t⟩) without {} :=
  (follows_switchAndText (by decide)).map fun _ _ => rfl

theorem IntegrationTests.follows : FollowsRevisions (switchSchema "timeout")
    (fun d n => (switchAndText d n "timeout").map fun (e, t) => ⟨e, t⟩) without {} :=
  (follows_switchAndText (by decide)).map fun _ _ => rfl

theorem PerformanceTests.follows : FollowsRevisions (switchSchema "benchmark_tool")
    (fun d n => (switchAndText d n "benchmark_tool").map fun (e, t) => ⟨e, t⟩) without {} :=
  (follows_switchAndText (by decide)).map fun _ _ => rfl

theorem Testing.follows : FollowsRevisions schema ofNode? without {} := by
  refine .of_fields (by decide) (fun d d' gone entries entries' => ?_) ?_
  refine .next StructureTests.follows fun structureTests => ?_
  refine .next IntegrationTests.follows fun integrationTests => ?_
  refine .next PerformanceTests.follows fun performanceTests => ?_
  · exact .done rfl
  · simp [without, StructureTests.follows.absent, IntegrationTests.follows.absent,
      PerformanceTests.follows.absent]

theorem WorkflowMatrix.follows : FollowsRevisions schema ofNode? without {} := by
  refine .of_fields (by decide) (fun d d' gone entries entries' => ?_) ?_
  refine .next follows_texts fun os => ?_
  refine .next follows_texts fun arch => ?_
  · exact .done rfl
  · simp [without]

theorem Workflows.follows : FollowsRevisions schema ofNode? without {} := by
  refine .of_fields (by decide) (fun d d' gone entries entries' => ?_) ?_
  refine .next WorkflowMatrix.follows fun matrix => ?_
  refine .next follows_texts fun parallel => ?_
  · exact .done rfl
  · simp [without, WorkflowMatrix.follows.absent]

theorem Artifacts.follows : FollowsRevisions schema ofNode? without {} := by
  refine .of_fields (by decide) (fun d d' gone entries entries' => ?_) ?_
  refine .next (follows_uint32 0) fun retentionDays => ?_
  · exact .done rfl
  · simp [without]

theorem Slack.follows : FollowsRevisions schema ofNode? without {} := by
  refine .of_fields (by decide) (fun d d' gone entries entries' => ?_) ?_
  refine .next follows_bool fun enabled => ?_
  refine .next follows_text fun webhook => ?_
  · exact .done rfl
  · simp [without]

theorem Notifications.follows : FollowsRevisions schema ofNode? without {} := by
  refine .of_fields (by decide) (fun d d' gone entries entries' => ?_) ?_
  refine .next Slack.follows fun slack => ?_
  · exact .done rfl
  · simp [without, Slack.follows.absent]

theorem Automation.follows : FollowsRevisions schema ofNode? without {} := by
  refine .of_fields (by decide) (fun d d' gone entries entries' => ?_) ?_
  refine .next Workflows.follows fun githubActions => ?_
  refine .next Artifacts.follows fun artifacts => ?_
  refine .next Notifications.follows fun notifications => ?_
  · exact .done rfl
  · simp [without, Workflows.follows.absent, Artifacts.follows.absent,
      Notifications.follows.absent]

theorem Sbom.follows : FollowsRevisions (switchSchema "formats")
    (fun d n => (switchAndNames d n "formats").map fun (e, l) => ⟨e, l⟩) without {} :=
  (follows_switchAndNames (by decide)).map fun _ _ => rfl

theorem Cosign.follows : FollowsRevisions schema ofNode? without {} := by
  refine .of_fields (by decide) (fun d d' gone entries entries' => ?_) ?_
  refine .next follows_bool fun enabled => ?_
  refine .next follows_bool fun keyless => ?_
  · exact .done rfl
  · simp [without]

theorem Signing.follows : FollowsRevisions schema ofNode? without {} := by
  refine .of_fields (by decide) (fun d d' gone entries entries' => ?_) ?_
  refine .next follows_bool fun enabled => ?_
  refine .next Cosign.follows fun cosign => ?_
  · exact .done rfl
  · simp [without, Cosign.follows.absent]

theorem Attestation.follows : FollowsRevisions schema ofNode? without {} := by
  refine .of_fields (by decide) (fun d d' gone entries entries' => ?_) ?_
  refine .next follows_bool fun enabled => ?_
  refine .next follows_bool fun provenance => ?_
  refine .next follows_bool fun sbomAttestation => ?_
  · exact .done rfl
  · simp [without]

theorem Publication.follows : FollowsRevisions schema ofNode? without {} := by
  refine .of_fields (by decide) (fun d d' gone entries entries' => ?_) ?_
  refine .next Sbom.follows fun sbom => ?_
  refine .next Signing.follows fun signing => ?_
  refine .next Attestation.follows fun attestation => ?_
  · exact .done rfl
  · simp [without, Sbom.follows.absent, Signing.follows.absent,
      Attestation.follows.absent]

theorem Hooks.follows : FollowsRevisions schema ofNode? without {} := by
  refine .of_fields (by decide) (fun d d' gone entries entries' => ?_) ?_
  refine .next follows_text fun preBuild => ?_
  refine .next follows_text fun postBuild => ?_
  · exact .done rfl
  · simp [without]

theorem Config.follows : FollowsRevisions schema ofNode? without {} := by
  refine .of_fields (by decide) (fun d d' gone entries entries' => ?_) ?_
  refine .next follows_text fun name => ?_
  refine .next follows_text fun version => ?_
  refine .next follows_text fun description => ?_
  refine .next follows_text fun author => ?_
  refine .next follows_text fun license => ?_
  refine .next ImageName.follows fun image => ?_
  refine .next BaseChoice.follows fun base => ?_
  refine .next ToolSelection.follows fun tools => ?_
  refine .next Security.follows fun security => ?_
  refine .next Optimization.follows fun optimization => ?_
  refine .next Testing.follows fun testing => ?_
  refine .next Automation.follows fun pipeline => ?_
  refine .next Publication.follows fun output => ?_
  refine .next Hooks.follows fun custom => ?_
  · exact .done rfl
  · simp [without, ImageName.follows.absent, BaseChoice.follows.absent,
      ToolSelection.follows.absent, Security.follows.absent, Optimization.follows.absent,
      Testing.follows.absent, Automation.follows.absent, Publication.follows.absent,
      Hooks.follows.absent]

/-! ### Nothing is gone -/

namespace ToolSelection

theorem toolsWithout_nothing (m : OrderedMap Tool) : toolsWithout .nothing m = m := by
  refine OrderedMap.eq_of_get? fun name => ?_
  rw [toolsWithout, OrderedMap.get?_restrict]
  cases m.get? name <;> rfl

theorem without_nothing (t : ToolSelection) : t.without .nothing = t := by
  simp [without, toolsWithout_nothing]

end ToolSelection

namespace Config

theorem without_nothing (c : Config) : c.without .nothing = c := by
  simp only [without, Removal.field_nothing, Removal.below_nothing,
    ToolSelection.without_nothing]
  rfl

/-! ### Documents -/

/-- What a document holds; one without content holds an empty value. -/
def top (d : Document) : Node := d.root.getD (.plain "")

theorem ofDocument?_eq (d : Document) : ofDocument? d = ofNode? d (top d) := by
  rw [ofDocument?, top]
  cases d.root <;> rfl

theorem exitCode_without (gone : Removal) (c : Config) :
    (c.without gone).security.trivy.exitCode =
      if gone ["security"] || gone ["security", "trivy"] ||
        gone ["security", "trivy", "exit_code"] then 1 else c.security.trivy.exitCode := by
  cases security : gone ["security"] <;> cases scan : gone ["security", "trivy"] <;>
    cases field : gone ["security", "trivy", "exit_code"] <;>
    simp [without, Security.without, VulnerabilityScan.without, Removal.field, Removal.below,
      security, scan, field]

/-- A document of a configuration has a revision for any keys that are to go, and from every
revision the configuration is read without what is gone. -/
theorem revision_read {d : Document} {c : Config} (read : ofDocument? d = some c)
    (gone : Removal) :
    (∃ d', Revised d d' schema gone (top d) (top d')) ∧
    ∀ d', Revised d d' schema gone (top d) (top d') →
      ∃ c', ofDocument? d' = some c' ∧ c' = c.without gone ∧
        ((∀ path, gone path = false) → c' = c) ∧
        c'.security.trivy.exitCode =
          if gone ["security"] || gone ["security", "trivy"] ||
            gone ["security", "trivy", "exit_code"] then 1 else c.security.trivy.exitCode := by
  rw [ofDocument?_eq] at read
  constructor
  · obtain ⟨n', revised⟩ := follows.revisable gone read
    exact ⟨.single n', revised n'⟩
  · intro d' revised
    rw [ofDocument?_eq]
    refine ⟨c.without gone, follows.revised revised c read, rfl, fun all => ?_, ?_⟩
    · have nothing : gone = .nothing := funext all
      rw [nothing, without_nothing]
    · exact exitCode_without gone c

/-- A scan that passes whatever it finds. -/
def laxScan : Node := .mapping [(.plain "enabled", .plain "true"), (.plain "exit_code", .plain "0")]

def laxDocument : Document where
  root := some (.mapping [(.plain "name", .plain "demo"),
    (.plain "security", .mapping [(.plain "trivy", laxScan)])])

/-- The sections stand in another order, and there is one that is not known. -/
def scanDocument (scan : Node) : Document where
  root := some (.mapping [(.plain "security", .mapping [(.plain "trivy", scan)]),
    (.plain "name", .plain "demo"), (.plain "contact", .sequence [])])

theorem scanDocument_revised {gone : Removal} {scan : Node}
    (stays : gone ["name"] = false ∧ gone ["security"] = false ∧ gone ["security", "trivy"] = false)
    (revised : Revised laxDocument (scanDocument scan) VulnerabilityScan.schema
      ((gone.below "security").below "trivy") laxScan scan) :
    Revised laxDocument (scanDocument scan) schema gone (top laxDocument)
      (top (scanDocument scan)) := by
  refine @Revised.fields _ _ _ _ _ _ [("name", .plain "demo"), ("security", _)] _
    [("contact", .sequence [])] [⟨"name", .plain "demo", .plain "demo"⟩,
      ⟨"security", .mapping [(.plain "trivy", laxScan)], .mapping [(.plain "trivy", scan)]⟩] rfl rfl
    (by simp [stays, KeptEntry.before]) (.swap _ _ _) (by simp) ?_
  intro e member inner known
  simp only [List.mem_cons, List.not_mem_nil, or_false] at member
  obtain rfl | rfl := member
  · obtain rfl : inner = .value := by simpa using known
    exact .value (.scalar rfl rfl)
  · obtain rfl : inner = Security.schema := by simpa using known
    refine @Revised.fields _ _ _ _ _ _ [("trivy", laxScan)] _ [] [⟨"trivy", laxScan, scan⟩] rfl rfl
      (by simp [Removal.below, stays, KeptEntry.before]) (.refl _) (by simp) ?_
    intro e member inner known
    obtain rfl := List.mem_singleton.mp member
    obtain rfl : inner = VulnerabilityScan.schema := by simpa using known
    exact revised

def longerScan : Node := .mapping [(.plain "exit_code", .plain "0"),
  (.plain "enabled", .plain "true"), (.plain "timeout", .plain "5m")]

theorem longerScan_revised : Revised laxDocument (scanDocument longerScan) VulnerabilityScan.schema
    .nothing laxScan longerScan := by
  refine @Revised.fields _ _ _ _ _ _ _ _ [("timeout", .plain "5m")]
    [⟨"enabled", _, _⟩, ⟨"exit_code", _, _⟩] rfl rfl rfl (.swap _ _ _) (by simp) ?_
  intro e member inner known
  simp only [List.mem_cons, List.not_mem_nil, or_false] at member
  obtain rfl | rfl := member
  all_goals
    obtain rfl : inner = .value := by simpa using known
    exact .value (.scalar rfl rfl)

def shorterScan : Node := .mapping [(.plain "enabled", .plain "true")]

theorem shorterScan_revised : Revised laxDocument (scanDocument shorterScan)
    VulnerabilityScan.schema (fun path => path == ["exit_code"]) laxScan shorterScan := by
  refine @Revised.fields _ _ _ _ _ _ [("enabled", .plain "true"), ("exit_code", .plain "0")] _ []
    [⟨"enabled", .plain "true", .plain "true"⟩] rfl rfl (by simp [KeptEntry.before]) (.refl _)
    (by simp) ?_
  intro e member inner known
  obtain rfl := List.mem_singleton.mp member
  obtain rfl : inner = .value := by simpa using known
  exact .value (.scalar rfl rfl)

def laxConfig : Config where
  name := "demo"
  security := { trivy := { enabled := true, exitCode := 0 } }

theorem laxDocument_read : ofDocument? laxDocument = some laxConfig := by decide +kernel

theorem laxDocument_revisions :
    (∃ c, ofDocument? (scanDocument longerScan) = some c ∧ c = laxConfig ∧
      c.security.trivy.exitCode = 0) ∧
    ∃ c, ofDocument? (scanDocument shorterScan) = some c ∧ c.security.trivy.exitCode = 1 := by
  have longer : Revised laxDocument (scanDocument longerScan) schema .nothing (top laxDocument)
      (top (scanDocument longerScan)) :=
    scanDocument_revised ⟨rfl, rfl, rfl⟩ longerScan_revised
  have shorter : Revised laxDocument (scanDocument shorterScan) schema
      (fun path => path == ["security", "trivy", "exit_code"]) (top laxDocument)
      (top (scanDocument shorterScan)) :=
    scanDocument_revised (by decide) shorterScan_revised
  obtain ⟨c, read, -, same, code⟩ := (revision_read laxDocument_read _).2 _ longer
  obtain ⟨b, read', -, -, code'⟩ := (revision_read laxDocument_read _).2 _ shorter
  exact ⟨⟨c, read, same fun _ => rfl, code⟩, b, read', code'.trans (by decide)⟩

end Config

end ImagePipeline
