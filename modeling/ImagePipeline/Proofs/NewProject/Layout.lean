import ImagePipeline.Proofs.Build.Prefix
import ImagePipeline.Proofs.NewProject.Creation

/-! A new project in a tree that may hold anything. What is in the tree stays, and where the project
could be laid out all of it is there, made or found. -/
namespace ImagePipeline.NewProject

open FileTree (Extends stepsOf)

variable {p : Project} {preset : Preset} {s s' : Session} {l : Location} {e : Entry}

/-- The files of a new project, the configuration first. -/
def files (p : Project) (preset : Preset) : List (Path × String) :=
  (p.configPath, configText preset) :: assets p

/-- The assets as seen from the root. -/
def assetNames : List String :=
  skeletonFile :: defaultStructureFile ::
    ComplianceStandard.all.map fun standard => policyRelative standard.name

/-! ### Where everything goes -/

theorem assets_paths (p : Project) : (assets p).map Prod.fst = assetNames.map p.path := rfl

/-- All of a project but the configuration lies below its root. -/
theorem below_root : ∀ name ∈ directories ++ assetNames,
    Path.isAbsolute ⟨name⟩ = false ∧ name ≠ "" ∧ ".." ∉ stepsOf ⟨name⟩ := by
  decide +kernel

theorem stepsOf_path {name : String} (listed : name ∈ directories ++ assetNames) :
    stepsOf (p.path name) = stepsOf p.root ++ stepsOf ⟨name⟩ :=
  FileTree.stepsOf_join (below_root name listed).1

theorem path_stays {name : String} (listed : name ∈ directories ++ assetNames)
    (root : ".." ∉ stepsOf p.root) : ".." ∉ stepsOf (p.path name) := by
  rw [stepsOf_path listed, List.mem_append, not_or]
  exact ⟨root, (below_root name listed).2.2⟩

theorem path_given {name : String} (listed : name ∈ directories ++ assetNames) :
    (p.path name).isEmpty = false := by
  obtain ⟨below, given, -⟩ := below_root name listed
  unfold Project.path Path.join
  rw [below, if_neg Bool.false_ne_true]
  split <;> simp [Path.isEmpty, given]

theorem path_prefix_iff {name other : String} (listed : name ∈ directories ++ assetNames)
    (other_listed : other ∈ directories ++ assetNames) :
    stepsOf (p.path name) <+: stepsOf (p.path other) ↔ stepsOf ⟨name⟩ <+: stepsOf ⟨other⟩ := by
  rw [stepsOf_path listed, stepsOf_path other_listed, List.prefix_append_right_inj]

theorem asset_named {f : Path × String} (member : f ∈ assets p) :
    ∃ name ∈ assetNames, f.1 = p.path name := by
  have listed : f.1 ∈ assetNames.map p.path := assets_paths p ▸ List.mem_map_of_mem member
  obtain ⟨name, member, same⟩ := List.mem_map.mp listed
  exact ⟨name, member, same.symm⟩

theorem assets_stay (root : ".." ∉ stepsOf p.root) : ∀ f ∈ assets p, ".." ∉ stepsOf f.1 := by
  intro f member
  obtain ⟨name, listed, same⟩ := asset_named member
  rw [same]
  exact path_stays (List.mem_append_right _ listed) root

/-- No asset stands in the way of another one. -/
theorem assets_apart (p : Project) :
    (assets p).Pairwise fun f g => ¬ stepsOf g.1 <+: stepsOf f.1 := by
  have names : assetNames.Pairwise fun name other => ¬ stepsOf ⟨other⟩ <+: stepsOf ⟨name⟩ := by
    decide +kernel
  have paths : ((assets p).map Prod.fst).Pairwise fun a b => ¬ stepsOf b <+: stepsOf a := by
    rw [assets_paths, List.pairwise_map]
    refine names.imp_of_mem fun listed other_listed apart => ?_
    rwa [path_prefix_iff (List.mem_append_right _ other_listed) (List.mem_append_right _ listed)]
  exact List.pairwise_map.mp paths

theorem assets_apart_from_directories {f : Path × String} {dir : String} (member : f ∈ assets p)
    (listed : dir ∈ directories) : ¬ stepsOf f.1 <+: stepsOf (p.path dir) := by
  have names : ∀ name ∈ assetNames, ∀ dir ∈ directories, ¬ stepsOf ⟨name⟩ <+: stepsOf ⟨dir⟩ := by
    decide +kernel
  obtain ⟨name, named, same⟩ := asset_named member
  rw [same, path_prefix_iff (List.mem_append_right _ named) (List.mem_append_left _ listed)]
  exact names name named dir listed

/-! ### The directories -/

/-- Directories on the way to the given ones, or these. -/
def Above (p : Project) (dirs : List String) (l : Location) (e : Entry) : Prop :=
  e = .directory ∧ ∃ dir ∈ dirs, l <+: stepsOf (p.path dir)

theorem createDirectories_alters {dirs : List String}
    (stays : ∀ dir ∈ dirs, ".." ∉ stepsOf (p.path dir)) :
    Alters (Extends (Above p dirs)) (createDirectories p dirs) s := by
  induction dirs generalizing s with
  | nil => exact .pure _
  | cons dir dirs ih =>
    rw [List.forall_mem_cons] at stays
    have first : Extends (Above p (dir :: dirs)) s.files (s.files.createDirs (p.path dir)).2 := by
      refine (FileTree.createDirs_extends s.files (p.path dir)).mono ?_
      rintro l e ⟨directory, way⟩
      exact ⟨directory, dir, List.mem_cons_self, (FileTree.onWay_iff stays.1).mp way⟩
    refine ((Alters.createDirs first).within _).bind fun _ m _ _ => ?_
    refine (ih stays.2).mono fun u more => more.mono ?_
    rintro l e ⟨directory, other, member, above⟩
    exact ⟨directory, other, List.mem_cons_of_mem dir member, above⟩

theorem createDirectories_ok {dirs : List String}
    (stays : ∀ dir ∈ dirs, ".." ∉ stepsOf (p.path dir))
    (given : ∀ dir ∈ dirs, (p.path dir).isEmpty = false)
    (run : (createDirectories p dirs).exec s = (.ok (), s')) :
    ∀ dir ∈ dirs, s'.files.isDirectory (p.path dir) = true := by
  induction dirs generalizing s with
  | nil => simp
  | cons dir dirs ih =>
    rw [List.forall_mem_cons] at stays given ⊢
    obtain ⟨_, m, first, rest⟩ := Work.ok_of_bind run
    refine ⟨?_, ih stays.2 given.2 rest⟩
    have made : s.files.createDirs (p.path dir) = (.ok (), m.files) := by
      have ran := Work.ok_of_within first
      rw [Work.createDirs, Work.exec_alter] at ran
      rcases changed : s.files.createDirs (p.path dir) with ⟨_ | _, u⟩
      · simp [changed, Except.mapError] at ran
      · rw [changed] at ran
        cases ran
        rfl
    have there := FileTree.isDirectory_of_createDirs given.1 made
    exact ((createDirectories_alters stays.2).files rest).isDirectory there

/-! ### The whole run -/

theorem exec_init_refused (there : s.files.pathExists p.configPath = true) :
    (init p preset false).exec s = (.error ⟨[], .configExists p.configPath⟩, s) := by
  unfold init
  rw [Work.exec_bind_ok (Work.exec_files s), if_pos (by simp [there])]
  rfl

/-- The layout behind the first look at the configuration. -/
def layOut (p : Project) (preset : Preset) : Work Report := do
  createDirectories p directories
  let report ← create true p.configPath (configText preset) {}
  createEach false (assets p) report

theorem exec_init (absent : s.files.pathExists p.configPath = false) :
    (init p preset false).exec s = (layOut p preset).exec s := by
  unfold init
  rw [Work.exec_bind_ok (Work.exec_files s), if_neg (by simp [absent])]
  rfl

/-- What a new project may add to a tree. -/
def New (p : Project) (files : List (Path × String)) (l : Location) (e : Entry) : Prop :=
  Above p directories l e ∨ ∃ f ∈ files, Added f l e

/-- Neither the root nor the path of the configuration leads upwards. -/
structure Straight (p : Project) : Prop where
  root : Component.parent ∉ p.root.components
  config : Component.parent ∉ p.configPath.components

namespace Straight

variable (straight : Straight p)
include straight

theorem directories : ∀ dir ∈ directories, ".." ∉ stepsOf (p.path dir) := fun _ listed =>
  path_stays (List.mem_append_left _ listed) (FileTree.stepsOf_stays straight.root)

theorem assets : ∀ f ∈ assets p, ".." ∉ stepsOf f.1 :=
  assets_stay (FileTree.stepsOf_stays straight.root)

end Straight

theorem layOut_alters (preset : Preset) (straight : Straight p) (rooted : s.files.Rooted)
    (absent : s.files.pathExists p.configPath = false) :
    Alters (Extends (New p (files p preset))) (layOut p preset) s := by
  have dirs := createDirectories_alters (s := s) straight.directories
  refine (dirs.mono fun u more => more.mono fun _ _ => .inl).bind fun _ m run _ => ?_
  have dirs := dirs.files run
  have config : Alters (Extends (Added (p.configPath, configText preset)))
      (create true p.configPath (configText preset) {}) m :=
    create_alters rooted (FileTree.stepsOf_stays straight.config)
      (dirs.mono fun _ _ => And.left) fun _ => absent
  refine (config.mono fun u more => more.mono fun l e added => ?_).bind fun report m' _ made => ?_
  · exact .inr ⟨_, List.mem_cons_self, added⟩
  · have rooted := made.rooted (dirs.rooted rooted)
    refine (createEach_alters rooted straight.assets).mono fun u more => more.mono ?_
    rintro l e ⟨f, member, added⟩
    exact .inr ⟨f, List.mem_cons_of_mem _ member, added⟩

/-- A new project stands: each of its files was made and holds its text, or had been there; its
directories are there; and nothing else has been added to the tree. -/
structure LaidOut (p : Project) (preset : Preset) (t u : FileTree) (report : Report)
    (made kept : List (Path × String)) : Prop where
  each : (made ++ kept).Perm (files p preset)
  created : report.created = made.map Prod.fst
  skipped : report.skipped = kept.map Prod.fst
  once : (report.created ++ report.skipped).Nodup
  existed : ∀ q ∈ report.skipped, t.pathExists q = true
  written : ∀ f ∈ made, u.read f.1 = .ok f.2.toUTF8
  directories : ∀ dir ∈ directories, u.isDirectory (p.path dir) = true
  only : Extends (New p made) t u

theorem files_distinct (clear : ∀ a ∈ assets p, ¬ stepsOf a.1 <+: stepsOf p.configPath) :
    ((files p preset).map Prod.fst).Nodup := by
  have apart : (files p preset).Pairwise fun f g => ¬ stepsOf g.1 <+: stepsOf f.1 :=
    List.pairwise_cons.mpr ⟨clear, assets_apart p⟩
  refine List.pairwise_map.mpr (apart.imp fun {f g} apart same => apart ?_)
  exact ⟨[], by rw [same, List.append_nil]⟩

theorem layOut_ok {report : Report} (straight : Straight p) (rooted : s.files.Rooted)
    (absent : s.files.pathExists p.configPath = false)
    (clear : ∀ a ∈ assets p, ¬ stepsOf a.1 <+: stepsOf p.configPath)
    (run : (layOut p preset).exec s = (.ok report, s')) :
    ∃ made kept, LaidOut p preset s.files s'.files report made kept := by
  obtain ⟨_, m, directories_made, rest⟩ := Work.ok_of_bind run
  obtain ⟨first, m', config_made, assets_made⟩ := Work.ok_of_bind rest
  have dirs := (createDirectories_alters straight.directories).files directories_made
  have below : m.files.Rooted := dirs.rooted rooted
  obtain ⟨made, kept, config, rfl, new⟩ := create_settles rooted
    (FileTree.stepsOf_stays straight.config) (dirs.mono fun _ _ => And.left) (fun _ => absent)
    config_made
  obtain rfl := new rfl
  obtain ⟨made', kept', others, rfl⟩ := createEach_settles (config.only.rooted below)
    straight.assets (assets_apart p) assets_made
  have settled := config.append others below straight.assets (by simpa using clear)
  have each : ((made ++ made') ++ kept').Perm (files p preset) := by
    simpa [files] using settled.each
  refine ⟨made ++ made', kept', ?_⟩
  constructor
  case each => exact each
  case created => simp [Report.extend]
  case skipped => simp [Report.extend]
  case once =>
    have listed := (each.map Prod.fst).nodup_iff.mpr (files_distinct clear)
    simpa [Report.extend] using listed
  case existed =>
    intro q skipped
    obtain ⟨f, member, rfl⟩ : ∃ f ∈ kept', f.1 = q := by simpa [Report.extend] using skipped
    have asset : f ∈ assets p := others.each.subset (List.mem_append_right _ member)
    -- what was found behind the directories is none of them, so that it was there before these
    have found := settled.existed f (by simpa using member)
    refine dirs.existed rooted (straight.assets f asset) found ?_
    rintro e ⟨-, dir, listed, above⟩
    exact assets_apart_from_directories asset listed above
  case written => exact settled.written
  case directories =>
    intro dir listed
    have given : ∀ dir ∈ directories, (p.path dir).isEmpty = false := fun _ listed =>
      path_given (List.mem_append_left _ listed)
    have there := createDirectories_ok straight.directories given directories_made dir listed
    exact settled.only.isDirectory there
  case only => exact (dirs.mono fun _ _ => .inl).trans (settled.only.mono fun _ _ => .inr)

/-- A tree with a skeleton of its own. -/
def customFiles : FileTree := ⟨[
  (["work"], .directory),
  (["work", "templates"], .directory),
  (["work", "templates", "dockerfile-template.tmpl"], .file "custom".toUTF8 false)]⟩

end ImagePipeline.NewProject
