import Mathlib.Order.Defs.Unbundled
import ImagePipeline.Proofs.Files.Extension
import ImagePipeline.Proofs.Mishap

/-! Work that changes files on its own: what it makes of the tree however it ends, and that it fails
for no other reason than that a change has failed. -/
namespace ImagePipeline

open FileTree (Extends Rewrites)

variable {α β : Type} {R : FileTree → FileTree → Prop}

instance {made : Location → Entry → Prop} : IsPreorder FileTree (Extends made) where
  refl := .refl
  trans _ _ _ := .trans

instance {written : Location → Prop} : IsPreorder FileTree (Rewrites written) where
  refl := .refl
  trans _ _ _ := .trans

/-- Work from a session on that leaves the files in this relation to those that it found, and fails
only where a change of files fails. -/
def Alters (R : FileTree → FileTree → Prop) (t : Work α) (s : Session) : Prop :=
  R s.files (t.exec s).2.files ∧ ∃ as, (t.exec s).2.actions = s.actions ++ as ∧
    ∀ cause, causeOf (t.exec s).1 = some cause → ∃ a ∈ as, a.failure? = some cause

namespace Alters

variable {t : Work α} {f : α → Work β} {s s' : Session}

theorem of_exec {result : Except Failure α} {as : List FileAction} (run : t.exec s = (result, s'))
    (files : R s.files s'.files) (actions : s'.actions = s.actions ++ as)
    (fails : ∀ cause, causeOf result = some cause → ∃ a ∈ as, a.failure? = some cause) :
    Alters R t s := by
  rw [Alters, run]
  exact ⟨files, as, actions, fails⟩

theorem files {result : Except Failure α} (alters : Alters R t s)
    (run : t.exec s = (result, s')) : R s.files s'.files := by
  have files := alters.1
  rwa [run] at files

theorem mono {R' : FileTree → FileTree → Prop} (alters : Alters R t s)
    (wider : ∀ u, R s.files u → R' s.files u) : Alters R' t s :=
  ⟨wider _ alters.1, alters.2⟩

/-- Work that goes well and leaves the files alone. -/
theorem idle [IsPreorder FileTree R] {a : α} (run : t.exec s = (.ok a, s'))
    (files : s'.files = s.files) (actions : s'.actions = s.actions) : Alters R t s := by
  have nothing : s'.actions = s.actions ++ [] := by rw [actions, List.append_nil]
  exact of_exec run (files ▸ Std.Refl.refl _) nothing nofun

theorem pure [IsPreorder FileTree R] (a : α) : Alters R (Pure.pure a : Work α) s :=
  idle (Work.exec_pure a s) rfl rfl

theorem log [IsPreorder FileTree R] (e : LogEvent) : Alters R (Work.log e) s :=
  idle (Work.exec_log e s) rfl rfl

theorem bind [IsPreorder FileTree R] (first : Alters R t s)
    (next : ∀ a s', t.exec s = (.ok a, s') → R s.files s'.files → Alters R (f a) s') :
    Alters R (t >>= f) s := by
  obtain ⟨files, as, actions, fails⟩ := first
  rcases run : t.exec s with ⟨result, s'⟩
  rw [run] at files actions fails
  cases result with
  | error e => exact of_exec (Work.exec_bind_error run) files actions fails
  | ok a =>
    obtain ⟨more, bs, further, failing⟩ := next a s' run files
    rw [Alters, Work.exec_bind_ok run]
    refine ⟨IsTrans.trans _ _ _ files more, as ++ bs, ?_, fun cause ended => ?_⟩
    · rw [further, actions, List.append_assoc]
    · obtain ⟨a, member, failure⟩ := failing cause ended
      exact ⟨a, List.mem_append_right _ member, failure⟩

theorem within (context : String) (inner : Alters R t s) : Alters R (Work.within context t) s := by
  obtain ⟨files, as, actions, fails⟩ := inner
  have outer := Work.exec_within context t s
  rcases run : t.exec s with ⟨result, s'⟩
  rw [run] at files actions fails outer
  cases result with
  | ok a => exact of_exec outer files actions fails
  | error e => exact of_exec outer files actions fails

theorem alter {p : Path} (change : FileTree → Except OsError Unit × FileTree)
    (files : R s.files (change s.files).2) : Alters R (Work.alter p change) s := by
  refine of_exec (Work.exec_alter p change s) files rfl fun cause ended => ?_
  refine ⟨_, List.mem_singleton_self _, ?_⟩
  cases changed : (change s.files).1 with
  | ok done =>
    rw [changed] at ended
    cases ended
  | error e =>
    rw [changed] at ended
    cases ended
    simp [FileAction.failure?]

theorem createDirs {p : Path} (files : R s.files (s.files.createDirs p).2) :
    Alters R (Work.createDirs p) s :=
  alter _ files

theorem writeText [IsPreorder FileTree R] {p : Path} {content : String}
    (files : ∀ u, s.files.write p content.toUTF8 = .ok u → R s.files u) :
    Alters R (Work.writeText p content) s := by
  refine alter _ ?_
  cases written : s.files.write p content.toUTF8 with
  | ok u => exact files u written
  | error e => exact Std.Refl.refl _

theorem createParent [IsPreorder FileTree R] {p : Path} {context : String}
    (files : ∀ parent, p.parent? = some parent → R s.files (s.files.createDirs parent).2) :
    Alters R (Work.createParent context p) s := by
  unfold Work.createParent
  split
  · rename_i parent found
    split
    · exact pure ()
    · exact (createDirs (files parent found)).within _
  · exact pure ()

/-- Where no change of files fails, neither does the work. -/
theorem succeeds (alters : Alters R t s) (unhindered : t.Unhindered s) :
    ∃ a, (t.exec s).1 = .ok a := by
  obtain ⟨-, as, actions, fails⟩ := alters
  rw [Work.Unhindered, actions, List.drop_left] at unhindered
  cases result : (t.exec s).1 with
  | ok a => exact ⟨a, rfl⟩
  | error e =>
    obtain ⟨a, member, failure⟩ := fails e.cause (by rw [result]; rfl)
    rw [unhindered a member] at failure
    cases failure

end Alters

end ImagePipeline
