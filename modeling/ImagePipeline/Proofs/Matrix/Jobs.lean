import ImagePipeline.Matrix.Basic
import Mathlib.Data.List.Nodup

/-! The jobs of a build matrix. The images come in an order that no configuration changes, and
each of them has the jobs of its place in that order. -/
namespace ImagePipeline

variable {c : Config} {bases : List BaseImage}

namespace BaseImage

/-- The place among all base images. -/
def place (b : BaseImage) : Nat := all.idxOf b

theorem place_injective {a b : BaseImage} (same : a.place = b.place) : a = b := by
  revert same
  cases a <;> cases b <;> decide

/-- The images of the first base image, then those of the second one, and so on. -/
def inOrder (bases : List BaseImage) : List BaseImage :=
  all.flatMap fun b => List.replicate (bases.count b) b

theorem inOrder_perm (bases : List BaseImage) : (inOrder bases).Perm bases := by
  refine List.perm_iff_count.mpr fun b => ?_
  cases b <;> simp [inOrder, all, List.count_replicate]

theorem inOrder_pairwise (bases : List BaseImage) :
    (inOrder bases).Pairwise fun a b => a.place ≤ b.place := by
  refine List.pairwise_flatMap.mpr ⟨fun b _ => ?_, ?_⟩
  · exact List.pairwise_replicate.mpr (.inr (Nat.le_refl _))
  · have ascending : all.Pairwise fun a b => a.place ≤ b.place := by decide
    refine ascending.imp fun {a b} le x memberX y memberY => ?_
    rwa [List.eq_of_mem_replicate memberX, List.eq_of_mem_replicate memberY]

end BaseImage

namespace Config

/-- The tools add to every score alike, so that the scores descend with the places. -/
theorem score_le_iff (c : Config) (a b : BaseImage) :
    c.score b ≤ c.score a ↔ a.place ≤ b.place := by
  have alike : c.score b ≤ c.score a ↔ ({} : Config).score b ≤ ({} : Config).score a := by
    cases a <;> cases b <;> simp [score]
  rw [alike]
  cases a <;> cases b <;> decide

theorem prioritize_pairwise (c : Config) (bases : List BaseImage) :
    (c.prioritize bases).Pairwise fun a b => a.place ≤ b.place := by
  have transitive (a b d : BaseImage) (front : decide (c.score b ≤ c.score a) = true)
      (back : decide (c.score d ≤ c.score b) = true) : decide (c.score d ≤ c.score a) = true := by
    rw [decide_eq_true_iff] at front back ⊢
    exact Nat.le_trans back front
  have total (a b : BaseImage) :
      (decide (c.score b ≤ c.score a) || decide (c.score a ≤ c.score b)) = true := by
    rw [Bool.or_eq_true, decide_eq_true_iff, decide_eq_true_iff]
    exact Nat.le_total _ _
  have sorted := List.pairwise_mergeSort transitive total bases
  exact sorted.imp fun {a b} le => (c.score_le_iff a b).mp (of_decide_eq_true le)

theorem prioritize_eq (c : Config) (bases : List BaseImage) :
    c.prioritize bases = BaseImage.inOrder bases :=
  List.Perm.eq_of_pairwise
    (fun _ _ _ _ le ge => BaseImage.place_injective (Nat.le_antisymm le ge))
    (c.prioritize_pairwise bases) (BaseImage.inOrder_pairwise bases)
    ((List.mergeSort_perm _ _).trans (BaseImage.inOrder_perm bases).symm)

end Config

/-! ### The jobs of a place -/

/-- What the image at a place is built for. -/
def archsAt : Nat → List String
  | 0 => ["amd64", "arm64"]
  | _ + 1 => ["amd64"]

def priorityAt : Nat → Priority
  | 0 => .high
  | 1 => .medium
  | _ + 2 => .low

def jobsAt (i : Nat) (b : BaseImage) : List MatrixJob :=
  (archsAt i).map fun arch => ⟨b, arch, priorityAt i⟩

theorem jobsAt_later (rest : List BaseImage) :
    (rest.mapIdx fun i => jobsAt (i + 2)).flatten = rest.map fun b => ⟨b, "amd64", .low⟩ := by
  have alike : (fun i => jobsAt (i + 2)) = fun _ b => [⟨b, "amd64", .low⟩] := rfl
  rw [alike]
  induction rest with
  | nil => rfl
  | cons b rest ih =>
    rw [List.mapIdx_cons, List.flatten_cons, ih]
    rfl

/-- Every image has the jobs of its place. -/
theorem jobsInOrder_eq (order : List BaseImage) :
    jobsInOrder order = (order.mapIdx jobsAt).flatten := by
  match order with
  | [] => rfl
  | [first] => rfl
  | first :: second :: rest =>
    simp only [List.mapIdx_cons, List.flatten_cons, Nat.zero_add, Nat.add_assoc, Nat.reduceAdd]
    rw [jobsAt_later]
    rfl

/-- What a job is about, on which no two jobs should agree. -/
def MatrixJob.tag (j : MatrixJob) : BaseImage × String := (j.base, j.arch)

/-- One job for each image, and one more for the first. -/
theorem jobsInOrder_tags (first : BaseImage) (rest : List BaseImage) :
    ((jobsInOrder (first :: rest)).map MatrixJob.tag).Perm
      ((first, "arm64") :: (first :: rest).map fun b => (b, "amd64")) := by
  cases rest with
  | nil => exact .swap ..
  | cons second rest =>
    simp only [jobsInOrder, List.map_append, List.map_map]
    exact .swap ..

theorem jobsInOrder_tags_nodup (order : List BaseImage) :
    ((jobsInOrder order).map MatrixJob.tag).Nodup ↔ order.Nodup := by
  cases order with
  | nil => exact ⟨fun _ => .nil, fun _ => .nil⟩
  | cons first rest =>
    have apart : (first, "arm64") ∉ (first :: rest).map fun b => (b, "amd64") := by simp
    have separate : Function.Injective fun b : BaseImage => (b, "amd64") :=
      fun _ _ same => congrArg Prod.fst same
    rw [(jobsInOrder_tags first rest).nodup_iff, List.nodup_cons, List.nodup_map_iff separate]
    exact and_iff_right apart

/-! ### The matrix of images -/

/-- A matrix of these images: in their order, each has the jobs of its place. -/
structure Schedules (images : List BaseImage) (limit : Nat) (m : BuildMatrix) : Prop where
  jobs : m.jobs = ((BaseImage.inOrder images).mapIdx jobsAt).flatten
  order : (BaseImage.inOrder images).Perm images
  length : m.jobs.length = images.length + 1
  platform : ∀ j ∈ m.jobs, j.platform = "linux/" ++ j.arch
  parallel : m.maxParallel = max limit 1

theorem buildMatrix_schedules (c : Config) {images : List BaseImage} (limit : Nat)
    (nonempty : images ≠ []) : Schedules images limit (buildMatrix c images limit) where
  jobs := by rw [buildMatrix, c.prioritize_eq, jobsInOrder_eq]
  order := BaseImage.inOrder_perm images
  length := by
    have perm := BaseImage.inOrder_perm images
    rw [buildMatrix, c.prioritize_eq]
    cases order : BaseImage.inOrder images with
    | nil =>
      rw [order] at perm
      exact absurd perm.symm.eq_nil nonempty
    | cons first rest =>
      rw [← perm.length_eq, order]
      simpa using (jobsInOrder_tags first rest).length_eq
  platform _ _ := rfl
  parallel := rfl

theorem buildMatrix_tags_nodup (c : Config) (images : List BaseImage) (limit : Nat) :
    ((buildMatrix c images limit).jobs.map MatrixJob.tag).Nodup ↔ images.Nodup := by
  rw [buildMatrix, jobsInOrder_tags_nodup, c.prioritize_eq]
  exact (BaseImage.inOrder_perm images).nodup_iff

end ImagePipeline
