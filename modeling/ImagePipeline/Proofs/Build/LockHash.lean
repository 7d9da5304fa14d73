import ImagePipeline.Proofs.Build.Lock
import ImagePipeline.Proofs.Hash.Sha256
import ImagePipeline.Proofs.Text.Pieces
import ImagePipeline.Proofs.Text.Utf8
import Mathlib.Data.Set.Function

/-! What the hash of a build tells apart. An architecture and the arguments behind it are hashed
with a zero byte in front of each argument, so that no text can move between neighbours unnoticed
as long as none of them has a zero itself. -/
namespace ImagePipeline

variable {arch other : String} {args others : List String}

namespace BuildLock

/-- Pieces without the byte zero are found again between zeros. -/
theorem separated_inj {x y : List UInt8} {xs ys : List (List UInt8)}
    (plain : ∀ piece ∈ x :: xs, 0 ∉ piece) (plain' : ∀ piece ∈ y :: ys, 0 ∉ piece)
    (same : x ++ xs.flatMap (0 :: ·) = y ++ ys.flatMap (0 :: ·)) : x = y ∧ xs = ys := by
  induction xs generalizing x y ys with
  | nil =>
    rw [List.flatMap_nil, List.append_nil] at same
    cases ys with
    | nil => simpa using same
    | cons p ys =>
      refine absurd ?_ (plain x List.mem_cons_self)
      rw [same]
      simp
  | cons p xs ih =>
    cases ys with
    | nil =>
      rw [List.flatMap_nil, List.append_nil] at same
      refine absurd ?_ (plain' y List.mem_cons_self)
      rw [← same]
      simp
    | cons q ys =>
      rw [List.flatMap_cons, List.flatMap_cons, List.cons_append, List.cons_append] at same
      obtain ⟨first, rest⟩ := Text.append_cons_inj (plain x List.mem_cons_self)
        (plain' y List.mem_cons_self) same
      obtain ⟨next, others⟩ := ih (List.forall_mem_cons.mp plain).2
        (List.forall_mem_cons.mp plain').2 rest
      exact ⟨first, by rw [next, others]⟩

/-- Neither an architecture nor its arguments have the character zero. -/
def ZeroFree (arch : String) (args : List String) : Prop := ∀ s ∈ arch :: args, '\x00' ∉ s.toList

instance : Decidable (ZeroFree arch args) :=
  inferInstanceAs (Decidable (∀ s ∈ arch :: args, '\x00' ∉ s.toList))

theorem buildArgsBytes_inj (plain : ZeroFree arch args) (plain' : ZeroFree other others) :
    buildArgsBytes arch args = buildArgsBytes other others ↔ arch = other ∧ args = others := by
  constructor
  · intro same
    have pieces {arch : String} {args : List String} (plain : ZeroFree arch args) :
        ∀ piece ∈ arch.toUTF8.toList :: args.map fun arg => arg.toUTF8.toList, 0 ∉ piece := by
      rw [← List.map_cons (f := fun s : String => s.toUTF8.toList)]
      exact List.forall_mem_map.mpr fun s member => Text.zero_not_mem_toUTF8 (plain s member)
    have split := separated_inj (pieces plain) (pieces plain') (by
      simpa only [buildArgsBytes, List.flatMap_map] using same)
    have inj : Function.Injective fun s : String => s.toUTF8.toList :=
      fun _ _ bytes => Text.toUTF8_toList_inj.mp bytes
    exact ⟨inj split.1, inj.list_map split.2⟩
  · rintro ⟨rfl, rfl⟩
    rfl

/-- A zero inside an argument is taken for the end of it. -/
example : buildArgsBytes "amd64" ["A=1\x00B=2"] = buildArgsBytes "amd64" ["A=1", "B=2"] := by
  decide +kernel

end BuildLock

/-- An entry of a lock for the build of an architecture with these arguments. -/
def ArchLock.Locks (e : ArchLock) (arch : String) (args : List String) : Prop :=
  ∃ c p time s lock, ((BuildLock.compute c p time).exec s).1 = .ok lock ∧
    e ∈ lock.architectures ∧ e.arch = arch ∧ c.toolBuildArgs = args

theorem ArchLock.Locks.hash {e : ArchLock} (locks : e.Locks arch args) :
    e.buildArgsHash = Sha256.hexDigest (BuildLock.buildArgsBytes arch args) := by
  obtain ⟨c, p, time, s, lock, locked, member, rfl, rfl⟩ := locks
  obtain ⟨entries, -⟩ := BuildLock.compute_ok (Prod.ext locked rfl)
  rw [entries] at member
  obtain ⟨arch, -, rfl⟩ := List.mem_map.mp member
  rfl

/-- Architectures and build arguments without the character zero are hashed from the same bytes
just if they are the same. So entries of locks have the same hash just if they are for the same
architecture with the same build arguments, unless the hash itself cannot tell their bytes apart. -/
theorem lock_hashes_tell_builds_apart (plain : BuildLock.ZeroFree arch args)
    (plain' : BuildLock.ZeroFree other others) :
    (BuildLock.buildArgsBytes arch args = BuildLock.buildArgsBytes other others ↔
      arch = other ∧ args = others) ∧
    ∀ e f : ArchLock, e.Locks arch args → f.Locks other others →
      Set.InjOn Sha256.hash
        {BuildLock.buildArgsBytes arch args, BuildLock.buildArgsBytes other others} →
      (e.buildArgsHash = f.buildArgsHash ↔ arch = other ∧ args = others) := by
  have bytes := BuildLock.buildArgsBytes_inj plain plain'
  refine ⟨bytes, fun e f first second apart => ?_⟩
  rw [first.hash, second.hash, Sha256.hexDigest_eq_iff,
    apart.eq_iff (Set.mem_insert _ _) (Set.mem_insert_of_mem _ rfl), bytes]

theorem pinnedDemo_locks {arch : String} (listed : arch ∈ pinnedDemo.base.architectures) :
    (BuildLock.archLock pinnedDemo arch).Locks arch pinnedDemo.toolBuildArgs := by
  have config : configuredFiles.read demoProject.configPath = .ok "name: demo".toUTF8 := by
    decide +kernel
  have dockerfile : configuredFiles.read (demoProject.templatePath
      (Text.trimmed pinnedDemo.base.template)) = .ok "FROM debian".toUTF8 := by decide +kernel
  have locked := congrArg Prod.fst
    (BuildLock.exec_compute noon (s := { files := configuredFiles }) dockerfile)
  rw [config] at locked
  exact ⟨pinnedDemo, demoProject, noon, { files := configuredFiles }, _, locked,
    List.mem_map_of_mem listed, rfl, rfl⟩

/-- The two architectures of a project with a pinned tool have two hashes. -/
theorem pinnedDemo_hashes_apart :
    BuildLock.ZeroFree "amd64" ["GO_VERSION=1.22.0"] ∧
    BuildLock.ZeroFree "arm64" ["GO_VERSION=1.22.0"] ∧
    (BuildLock.archLock pinnedDemo "amd64").buildArgsHash ≠
      (BuildLock.archLock pinnedDemo "arm64").buildArgsHash := by
  have plain (arch : String) (named : arch ∈ ["amd64", "arm64"]) :
      BuildLock.ZeroFree arch ["GO_VERSION=1.22.0"] := by
    revert arch
    decide +kernel
  have args : pinnedDemo.toolBuildArgs = ["GO_VERSION=1.22.0"] := by decide +kernel
  have locks {arch : String} (listed : arch ∈ pinnedDemo.base.architectures) :
      (BuildLock.archLock pinnedDemo arch).Locks arch ["GO_VERSION=1.22.0"] :=
    args ▸ pinnedDemo_locks listed
  have hashes : Sha256.hash (BuildLock.buildArgsBytes "amd64" ["GO_VERSION=1.22.0"]) ≠
      Sha256.hash (BuildLock.buildArgsBytes "arm64" ["GO_VERSION=1.22.0"]) := by
    simp only [BuildLock.buildArgsBytes, Text.toUTF8_toList]
    decide +kernel
  have apart := Set.injOn_pair.mpr fun same => absurd same hashes
  have told := (lock_hashes_tell_builds_apart
    (plain "amd64" (by decide)) (plain "arm64" (by decide))).2
    _ _ (locks (by decide)) (locks (by decide)) apart
  refine ⟨plain "amd64" (by decide), plain "arm64" (by decide), fun same => ?_⟩
  exact absurd (told.mp same).1 (by decide)

end ImagePipeline
