import Mathlib.Data.List.Nodup
import ImagePipeline.Proofs.Template.Marks
import ImagePipeline.Trial.Basic

/-! The choice of a tool means the same in a template, in the probes of an image and in the build
arguments of a build. The tables that say so agree with each other and with the skeleton. -/
namespace ImagePipeline

/-- The version of a tool, or the usual one if none is given. -/
def Tool.versionOr (tool : Tool) (usual : String) : String :=
  if Text.isBlankText tool.version then usual else Text.trimmed tool.version

namespace Dockerfile

/-- What a declaration of a build argument with a value starts with. -/
def declarationMark (argument : String) : String := "ARG " ++ argument ++ "="

/-- The lines of a text that declare a build argument and give it a value. -/
def declarations (argument text : String) : List String :=
  (Text.linesOf text).filter fun line =>
    Text.startsWith (declarationMark argument).toList line.toList

end Dockerfile

namespace Template
open Dockerfile (declarationMark declarations)

/-- The tools whose versions the skeleton takes as build arguments, and the names of these. -/
def versionArguments : List (String × String) := [
  ("go", "GO_VERSION"), ("nodejs", "NODEJS_VERSION"), ("kubectl", "KUBECTL_VERSION"),
  ("helm", "HELM_VERSION"), ("terraform", "TERRAFORM_VERSION")]

/-- One meaning of the choice of a tool: its flag, its probe, and the build argument that gives
its version. -/
structure ToolBinding.Agrees (b : ToolBinding) (config : Config) (c : Context) (text : String) :
    Prop where
  flag : c.flag? b.flag = some (config.toolInstalled b.category b.tool)
  /-- The probe of the tool is there just if the tool is, and no other goes by its name. -/
  probe : ∃ probe, (b.category, probe) ∈ toolProbes ∧ probe.label = b.tool ∧
    config.probes.filter (fun q => q.label == b.tool) =
      if config.toolInstalled b.category b.tool then [probe] else []
  /-- Where the version is an argument, it is declared once if the tool is installed and else
  never, with the version that a build gives the argument if it gives one. -/
  version : ∀ argument, versionArguments.lookup b.tool = some argument →
    ∃ name usual, b.version = some (name, usual) ∧
      (config.toolInstalled b.category b.tool = false → declarations argument text = []) ∧
      ∀ tool, config.tool? b.category b.tool = some tool → tool.install = true →
        declarations argument text = [declarationMark argument ++ tool.versionOr usual] ∧
        (Text.isBlankText tool.version = false →
          argument ++ "=" ++ tool.versionOr usual ∈ config.toolBuildArgs)

/-! ### Flags and variables -/

/-- Of entries with names that differ each is found. -/
theorem lookup_of_distinct {α : Type} {entries : List (String × α)} {name : String} {a : α}
    (distinct : (entries.map Prod.fst).Nodup) (member : (name, a) ∈ entries) :
    entries.lookup name = some a := by
  induction entries with
  | nil => cases member
  | cons entry rest ih =>
    obtain ⟨other, b⟩ := entry
    obtain ⟨apart, others⟩ := List.nodup_cons.mp distinct
    rcases List.mem_cons.mp member with same | behind
    · cases same
      exact List.lookup_cons_self
    · have ne : name ≠ other := by
        rintro rfl
        exact apart (List.mem_map.mpr ⟨(name, a), behind, rfl⟩)
      rw [List.lookup_cons, beq_eq_false_iff_ne.mpr ne]
      exact ih others behind

theorem configNames_distinct : configNames.values.Nodup := by decide +kernel

section OfConfig

variable {config : Config} {c : Context} {b : ToolBinding} {bs : List ToolBinding}

theorem ToolBinding.bind_flags : (b.bind config c).flags =
    (b.flag, config.toolInstalled b.category b.tool) :: c.flags := by
  unfold bind
  dsimp only
  split <;> rfl

theorem ToolBinding.bind_values : (b.bind config c).values =
    (b.version.map fun (name, usual) => (name, b.versionIn config usual)).toList ++ c.values := by
  unfold bind
  dsimp only
  split <;> simp_all [Context.withValue, Context.withFlag]

/-- Binding tools adds entries and takes none away. -/
theorem bindings_grow (config : Config) (c : Context) (bs : List ToolBinding) :
    c.flags ⊆ (bs.foldl (ToolBinding.bind config) c).flags ∧
    c.values ⊆ (bs.foldl (ToolBinding.bind config) c).values := by
  induction bs generalizing c with
  | nil => exact ⟨List.Subset.refl _, List.Subset.refl _⟩
  | cons b bs ih =>
    obtain ⟨flags, values⟩ := ih (b.bind config c)
    rw [ToolBinding.bind_flags] at flags
    rw [ToolBinding.bind_values] at values
    exact ⟨List.Subset.trans (List.subset_cons_self _ _) flags,
      List.Subset.trans (List.subset_append_right _ _) values⟩

theorem bindings_mem (member : b ∈ bs) :
    (b.flag, config.toolInstalled b.category b.tool) ∈
        (bs.foldl (ToolBinding.bind config) c).flags ∧
      ∀ name usual, b.version = some (name, usual) →
        (name, b.versionIn config usual) ∈ (bs.foldl (ToolBinding.bind config) c).values := by
  induction bs generalizing c with
  | nil => cases member
  | cons other bs ih =>
    rcases List.mem_cons.mp member with rfl | behind
    · obtain ⟨flags, values⟩ := bindings_grow config (b.bind config c) bs
      rw [ToolBinding.bind_flags] at flags
      rw [ToolBinding.bind_values] at values
      refine ⟨flags List.mem_cons_self, fun name usual given => values ?_⟩
      simp [given]
    · exact ih behind

/-- What tools are bound to is in the context of a configuration. -/
theorem ofConfig_bindings (config : Config) (base : BaseImage) (time : Timestamp) :
    ∃ c, (toolBindings.foldl (ToolBinding.bind config) c).flags ⊆
        (Context.ofConfig config base time).flags ∧
      (toolBindings.foldl (ToolBinding.bind config) c).values ⊆
        (Context.ofConfig config base time).values :=
  ⟨_, List.subset_append_right [_, _, _, _, _] _, List.Subset.refl _⟩

theorem ofConfig_distinct (config : Config) (base : BaseImage) (time : Timestamp) :
    ((Context.ofConfig config base time).values.map Prod.fst).Nodup ∧
      ((Context.ofConfig config base time).flags.map Prod.fst).Nodup := by
  have names := congrArg Names.values (names_ofConfig config base time)
  have distinct := configNames_distinct
  rw [← names] at distinct
  exact ⟨(List.nodup_append.mp distinct).1, (List.nodup_append.mp distinct).2.1⟩

theorem ofConfig_flag (config : Config) (base : BaseImage) (time : Timestamp)
    (member : b ∈ toolBindings) : (Context.ofConfig config base time).flag? b.flag =
      some (config.toolInstalled b.category b.tool) := by
  obtain ⟨c, flags, -⟩ := ofConfig_bindings config base time
  exact lookup_of_distinct (ofConfig_distinct config base time).2 (flags (bindings_mem member).1)

theorem ofConfig_value (config : Config) (base : BaseImage) (time : Timestamp)
    (member : b ∈ toolBindings)
    {name usual : String} (given : b.version = some (name, usual)) :
    (Context.ofConfig config base time).value? name = some (b.versionIn config usual) := by
  obtain ⟨c, -, values⟩ := ofConfig_bindings config base time
  have found := lookup_of_distinct (ofConfig_distinct config base time).1
    (values ((bindings_mem member).2 name usual given))
  rw [Context.value?, found]
  rfl

end OfConfig

/-! ### Probes -/

theorem toolProbes_bindings : ∀ b ∈ toolBindings, b.tool ≠ smokeProbe.label ∧
    (toolProbes.filter fun e => e.2.label == b.tool).map Prod.fst = [b.category] := by
  decide +kernel

/-- A tool has the one probe of its name, which is there just if the tool is. -/
theorem probes_of_tool (config : Config) {b : ToolBinding} (member : b ∈ toolBindings) :
    ∃ probe, (b.category, probe) ∈ toolProbes ∧ probe.label = b.tool ∧
      config.probes.filter (fun q => q.label == b.tool) =
        if config.toolInstalled b.category b.tool then [probe] else [] := by
  obtain ⟨other, only⟩ := toolProbes_bindings b member
  obtain ⟨⟨category, probe⟩, single, same⟩ := List.map_eq_singleton_iff.mp only
  have inside : (category, probe) ∈ toolProbes.filter fun e => e.2.label == b.tool := by
    rw [single]
    exact List.mem_singleton_self _
  obtain ⟨listed, label⟩ := List.mem_filter.mp inside
  obtain rfl : category = b.category := same
  have label : probe.label = b.tool := by simpa using label
  refine ⟨probe, listed, label, ?_⟩
  have smoke : (smokeProbe.label == b.tool) = false := beq_eq_false_iff_ne.mpr (Ne.symm other)
  have tools : (toolProbes.filter fun e => config.toolInstalled e.1 e.2.label).filter
      (fun e => e.2.label == b.tool) =
        if config.toolInstalled b.category b.tool then [(b.category, probe)] else [] := by
    rw [List.filter_comm, single]
    cases installed : config.toolInstalled b.category b.tool <;> simp [label, installed]
  rw [Config.probes, List.filter_cons, smoke, List.filter_map]
  have same : ((fun q : Probe => q.label == b.tool) ∘ Prod.snd) =
      fun e : ToolCategory × Probe => e.2.label == b.tool := rfl
  rw [same, tools]
  cases config.toolInstalled b.category b.tool <;> rfl

/-! ### Declarations -/

/-- The mark of a declaration, the flag of its block and the variable with its value. -/
def versionSlots : List (List Char × List Char × List Char) := [
  ("ARG GO_VERSION=".toList, "InstallGo".toList, "GoVersion".toList),
  ("ARG NODEJS_VERSION=".toList, "InstallNodeJS".toList, "NodeVersion".toList),
  ("ARG KUBECTL_VERSION=".toList, "InstallKubectl".toList, "KubectlVersion".toList),
  ("ARG HELM_VERSION=".toList, "InstallHelm".toList, "HelmVersion".toList),
  ("ARG TERRAFORM_VERSION=".toList, "InstallTerraform".toList, "TerraformVersion".toList)]

/-- What is checked of the skeleton by evaluation: its lines have no line feeds, and each version
is assigned once. -/
def skeletonAssigns (slots : List (List Char × List Char × List Char))
    (lines : List (List Char)) : Bool :=
  match (Outline.addLines 1 {} lines).bind Outline.finish with
  | .ok nodes => nodesEvery unfed nodes &&
      slots.all fun (mark, flag, name) => assignsOnce mark flag name nodes
  | .error _ => false

theorem skeleton_assigns :
    skeletonAssigns versionSlots (skeletonLines.map String.toList) = true := by
  simp only [skeletonLines, versionSlots, List.map_cons, List.map_nil, directive, slot, argument,
    String.toList_append]
  -- literals are rewritten first, as for the other checks of the skeleton
  repeat rw [String.toList_ofList]
  decide +kernel

theorem skeleton_assigned :
    ∃ nodes, parse skeleton.toList = .ok nodes ∧ nodesClosed configNames false nodes = true ∧
      nodesEvery unfed nodes = true ∧
      ∀ slot ∈ versionSlots, assignsOnce slot.1 slot.2.1 slot.2.2 nodes = true := by
  obtain ⟨nodes, parsed, unbroken, closed, -⟩ := parsed_of_checks skeleton_checks
  have assigns := skeleton_assigns
  rw [skeletonAssigns, parsed] at assigns
  obtain ⟨feeds, slots⟩ := Bool.and_eq_true_iff.mp assigns
  refine ⟨nodes, ?_, closed, feeds, List.all_eq_true.mp slots⟩
  rw [parse_eq, skeleton, Text.lines_ofLines unbroken]
  exact parsed

/-- A tool whose version is an argument has a slot for it, and a usual version between blanks. The
argument is the one that a build uses. -/
theorem versionArguments_slots : ∀ b ∈ toolBindings,
    ∀ argument ∈ versionArguments.lookup b.tool, argument = buildArgName b.tool ++ "_VERSION" ∧
      '\r' ∉ (declarationMark argument).toList ∧ ∃ entry ∈ b.version,
        ((declarationMark argument).toList, b.flag.toList, entry.1.toList) ∈ versionSlots ∧
        Text.trimmed entry.2 = entry.2 := by
  decide +kernel

/-- A version has no blanks around it if the usual one has none. -/
theorem ToolBinding.versionIn_trimmed (b : ToolBinding) (config : Config) {usual : String}
    (trimmed : Text.trimmed usual = usual) :
    Text.trimmed (b.versionIn config usual) = b.versionIn config usual := by
  unfold versionIn
  split
  · split
    · exact trimmed
    · exact Text.trimmed_trimmed _
  · exact trimmed

theorem getLast?_of_trimmed {value : String} (trimmed : Text.trimmed value = value) :
    value.toList.getLast? ≠ some '\r' := by
  intro last
  obtain ⟨front, cut⟩ := List.getLast?_eq_some_iff.mp last
  have ends : Text.trim value.toList = front ++ ['\r'] := by
    rw [← cut, ← String.toList_ofList (l := Text.trim _), ← Text.trimmed, trimmed]
  have visible := Text.trim_concat_ne ends
  contradiction

/-- The declarations in a text that is put together are the lines that declare the argument. -/
theorem declarations_assemble {argument value : String} {template : List Char}
    {lines : List (List Char)} {on : Bool} (ends : Text.endsWithLineFeed template = true)
    (feeds : ∀ line ∈ lines, Text.NoFeed line)
    (unreturned : '\r' ∉ (declarationMark argument).toList)
    (trimmed : Text.trimmed value = value)
    (marked : lines.filter (Text.startsWith (declarationMark argument).toList) =
      if on then [(declarationMark argument).toList ++ value.toList] else []) :
    declarations argument (String.ofList (assemble template lines)) =
      if on then [declarationMark argument ++ value] else [] := by
  have whole : (Text.lines (assemble template lines)).filter
      (Text.startsWith (declarationMark argument).toList) =
        if on then [(declarationMark argument).toList ++ value.toList] else [] := by
    by_cases given : Text.unlines lines = []
    · cases on with
      | false => simp [assemble, given, Text.lines]
      | true =>
        have member : (declarationMark argument).toList ++ value.toList ∈
            lines.filter (Text.startsWith (declarationMark argument).toList) := by
          rw [marked]
          exact List.mem_singleton_self _
        refine absurd given (Text.unlines_ne_nil (List.mem_filter.mp member).1 ?_)
        simp [declarationMark]
    · rw [assemble_eq_flatMap ends given, Text.lines_filter_startsWith unreturned feeds, marked]
      rw [marked]
      cases on with
      | false => simp
      | true =>
        simp only [if_true, List.mem_singleton]
        rintro line rfl last
        rw [List.getLast?_append] at last
        rcases Option.or_eq_some_iff.mp last with here | ⟨-, there⟩
        · exact getLast?_of_trimmed trimmed here
        · exact unreturned (List.mem_of_getLast? there)
  have same : (fun line : String => Text.startsWith (declarationMark argument).toList line.toList) ∘
      String.ofList = Text.startsWith (declarationMark argument).toList := by
    funext line
    simp
  rw [declarations, Text.linesOf, String.toList_ofList, List.filter_map, same, whole]
  cases on with
  | false => rfl
  | true => simp [String.ofList_append, String.ofList_toList]

theorem ToolBinding.versionIn_eq {config : Config} {b : ToolBinding} {tool : Tool}
    (found : config.tool? b.category b.tool = some tool) (usual : String) :
    b.versionIn config usual = tool.versionOr usual := by
  simp only [versionIn, found, Tool.versionOr]

/-- An installed tool with a version of its own gives a build argument. -/
theorem toolBuildArgs_mem {config : Config} {category : ToolCategory} {name usual : String}
    {tool : Tool} (found : config.tool? category name = some tool) (installed : tool.install = true)
    (given : Text.isBlankText tool.version = false) :
    buildArgName name ++ "_VERSION" ++ "=" ++ tool.versionOr usual ∈ config.toolBuildArgs := by
  refine List.mem_map.mpr ⟨(category, name, tool), List.mem_filter.mpr ⟨tool_mem_all found, ?_⟩, ?_⟩
  · simp [installed, given]
  · simp [Tool.versionOr, given, String.append_assoc]

/-- For every configuration of texts without line feeds, and for every tool of the table, the flag
of the context, the probe of the tool, the declaration in the skeleton and the build argument mean
the same: that the tool is installed, and in what version. -/
theorem toolBindings_agree (config : Config) (base : BaseImage) (time : Timestamp)
    (unbroken : config.Texts Text.NoFeed) :
    ∃ text, render skeleton (Context.ofConfig config base time) = .ok text ∧
      ∀ b ∈ toolBindings, b.Agrees config (Context.ofConfig config base time) text := by
  obtain ⟨nodes, parsed, closed, unfed, slots⟩ := skeleton_assigned
  rw [← names_ofConfig config base time] at closed
  obtain ⟨lines, rendered⟩ := renderNodes_of_closed none nodes closed
  have ends : Text.endsWithLineFeed skeleton.toList = true :=
    Text.endsWithLineFeed_ofLines (List.cons_ne_nil _ _)
  have texts := ofConfig_texts Text.noFeed_harmless unbroken base time
  have feeds := renderNodes_every (unfed_tells texts) (by simp) nodes unfed rendered
  refine ⟨_, render_ok parsed rendered, fun b member => ?_⟩
  refine ⟨ofConfig_flag config base time member, probes_of_tool config member, ?_⟩
  intro argument listed
  obtain ⟨rfl, unreturned, ⟨name, usual⟩, given, slot, trimmed⟩ :=
    versionArguments_slots b member argument listed
  have once := slots _ slot
  dsimp only at once
  have flag := ofConfig_flag config base time member
  have value := ofConfig_value config base time member given
  rw [← String.ofList_toList (s := b.flag)] at flag
  rw [← String.ofList_toList (s := name)] at value
  have declared := declarations_assemble ends feeds unreturned (b.versionIn_trimmed config trimmed)
    (marked_of_assignsOnce once flag value rendered)
  refine ⟨name, usual, given, fun absent => by rw [declared, absent]; rfl, ?_⟩
  intro tool found installed
  have present : config.toolInstalled b.category b.tool = true := by
    rw [Config.toolInstalled, found]
    exact installed
  rw [b.versionIn_eq found] at declared
  exact ⟨by rw [declared, present]; rfl, toolBuildArgs_mem found installed⟩

/-- Tools with a version, without one, and left out. -/
def chosenTools : Config where
  name := "forge"
  version := "1.4.0"
  base := { architectures := ["arm64"] }
  tools := {
    languages := .ofList [("go", { install := true, version := " 1.22.1" })]
    devops := .ofList [("helm", { install := true }), ("kubectl", { version := "1.30.0" })] }

theorem chosenTools_declared :
    chosenTools.Texts Text.NoFeed ∧
    ∃ text, render skeleton (Context.ofConfig chosenTools .alpine320 ⟨0, 0⟩) = .ok text ∧
      declarations "GO_VERSION" text = ["ARG GO_VERSION=1.22.1"] ∧
      "GO_VERSION=1.22.1" ∈ chosenTools.toolBuildArgs ∧
      declarations "HELM_VERSION" text = ["ARG HELM_VERSION=3.14.0"] ∧
      declarations "KUBECTL_VERSION" text = [] := by
  have unbroken : chosenTools.Texts Text.NoFeed :=
    ⟨by decide, by decide, by decide, by decide, by decide⟩
  obtain ⟨text, rendered, agree⟩ := toolBindings_agree chosenTools .alpine320 ⟨0, 0⟩ unbroken
  have go := (agree ⟨.languages, "go", "InstallGo", some ("GoVersion", "1.22.0")⟩
    (by simp [toolBindings])).version "GO_VERSION" rfl
  have helm := (agree ⟨.devops, "helm", "InstallHelm", some ("HelmVersion", "3.14.0")⟩
    (by simp [toolBindings])).version "HELM_VERSION" rfl
  have kubectl := (agree ⟨.devops, "kubectl", "InstallKubectl", some ("KubectlVersion", "1.29.0")⟩
    (by simp [toolBindings])).version "KUBECTL_VERSION" rfl
  obtain ⟨_, _, usual, -, installed⟩ := go
  cases usual
  obtain ⟨goDeclared, goArgument⟩ := installed _ rfl rfl
  obtain ⟨_, _, usual, -, installed⟩ := helm
  cases usual
  obtain ⟨helmDeclared, -⟩ := installed _ rfl rfl
  obtain ⟨_, _, -, absent, -⟩ := kubectl
  exact ⟨unbroken, text, rendered, goDeclared, goArgument (by decide), helmDeclared,
    absent (by decide)⟩

end Template

end ImagePipeline
