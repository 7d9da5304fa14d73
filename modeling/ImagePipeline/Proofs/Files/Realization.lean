import ImagePipeline.Proofs.Files.Overwriting
import ImagePipeline.Proofs.Work

/-! Work as a partial function of trees: whether it goes well and what it makes of the files depends
on the files alone. -/
namespace ImagePipeline

/-- Work that makes of the files what a function gives, with one result. Where the function gives
nothing the work fails. -/
structure Realizes {α : Type} (f : FileTree → Option FileTree) (t : Work α) (a : α) : Prop where
  goes : ∀ {s : Session} {u : FileTree}, f s.files = some u →
    ∃ s', t.exec s = (.ok a, s') ∧ s'.files = u
  fails : ∀ {s : Session}, f s.files = none → ∃ e s', t.exec s = (.error e, s')

namespace Realizes

variable {α β : Type} {f g : FileTree → Option FileTree} {t : Work α} {k : α → Work β} {a a' : α}
  {b : β} {s s' : Session}

/-- What work has done that has gone well. -/
theorem of_run (realizes : Realizes f t a) (run : t.exec s = (.ok a', s')) :
    a' = a ∧ f s.files = some s'.files := by
  cases made : f s.files with
  | none =>
    obtain ⟨e, _, failed⟩ := realizes.fails made
    rw [failed] at run
    cases run
  | some u =>
    obtain ⟨_, went, rfl⟩ := realizes.goes made
    rw [went] at run
    cases run
    exact ⟨rfl, rfl⟩

theorem pure (a : α) : Realizes some (Pure.pure a : Work α) a where
  goes {s _} made := ⟨s, rfl, Option.some.inj made⟩
  fails never := nomatch never

theorem bind (first : Realizes f t a) (next : Realizes g (k a) b) :
    Realizes (fun u => (f u).bind g) (t >>= k) b where
  goes {s u} made := by
    obtain ⟨m, made, further⟩ := Option.bind_eq_some_iff.mp made
    obtain ⟨s₁, went, rfl⟩ := first.goes made
    rw [Work.exec_bind_ok went]
    exact next.goes further
  fails {s} none := by
    cases made : f s.files with
    | none =>
      obtain ⟨e, s₁, failed⟩ := first.fails made
      exact ⟨e, s₁, Work.exec_bind_error failed⟩
    | some m =>
      obtain ⟨s₁, went, rfl⟩ := first.goes made
      rw [made] at none
      rw [Work.exec_bind_ok went]
      exact next.fails none

/-- Work for a result that does not depend on it. -/
theorem andReturn (realizes : Realizes f t a) (b : β) :
    Realizes f (t >>= fun _ => Pure.pure b) b := by
  have whole := realizes.bind (k := fun _ => Pure.pure b) (.pure b)
  simpa only [Option.bind_fun_some] using whole

theorem within (context : String) (inner : Realizes f t a) :
    Realizes f (Work.within context t) a where
  goes {s u} made := by
    obtain ⟨s₁, went, files⟩ := inner.goes made
    exact ⟨s₁, by rw [Work.exec_within, went], files⟩
  fails {s} none := by
    obtain ⟨e, s₁, failed⟩ := inner.fails none
    exact ⟨e.within context, s₁, by rw [Work.exec_within, failed]⟩

/-- Work that does in every session what other work does. -/
theorem congr {t' : Work α} (realizes : Realizes f t a) (same : ∀ s, t'.exec s = t.exec s) :
    Realizes f t' a where
  goes made := by
    rw [same]
    exact realizes.goes made
  fails none := by
    rw [same]
    exact realizes.fails none

/-- A change of the files that leaves what the function gives, unless it fails. -/
theorem alter (p : Path) {change : FileTree → Except OsError Unit × FileTree}
    (goes : ∀ t u, f t = some u → change t = (.ok (), u))
    (fails : ∀ t, f t = none → ∃ fault u, change t = (.error fault, u)) :
    Realizes f (Work.alter p change) () where
  goes {s u} made := by
    rw [Work.exec_alter, goes _ u made]
    exact ⟨_, rfl, rfl⟩
  fails {s} none := by
    obtain ⟨fault, u, failed⟩ := fails _ none
    rw [Work.exec_alter, failed]
    exact ⟨_, _, rfl⟩

theorem createDirs (p : Path) : Realizes (·.made? p) (Work.createDirs p) () := by
  refine .alter p (fun _ _ => FileTree.made?_eq_some_iff.mp) fun t none => ?_
  rcases made : t.createDirs p with ⟨fault | _, u⟩
  · exact ⟨fault, u, rfl⟩
  · rw [FileTree.made?_eq_some_iff.mpr made] at none
    cases none

theorem createParent (context : String) (p : Path) :
    Realizes (·.withParent? p) (Work.createParent context p) () := by
  unfold Work.createParent FileTree.withParent?
  cases p.parent? with
  | none => exact .pure ()
  | some parent =>
    cases given : parent.isEmpty with
    | true =>
      simp only [given, if_true]
      exact .pure ()
    | false =>
      simp only [given, Bool.false_eq_true, if_false]
      exact (createDirs parent).within _

theorem writeText (p : Path) (content : String) :
    Realizes (fun t => (t.write p content.toUTF8).toOption) (Work.writeText p content) () := by
  refine .alter p (fun t u made => ?_) fun t none => ?_
  · cases written : t.write p content.toUTF8 with
    | error fault =>
      rw [written] at made
      cases made
    | ok written =>
      rw [written] at made
      cases made
      rfl
  · cases written : t.write p content.toUTF8 with
    | error fault => exact ⟨fault, t, rfl⟩
    | ok u =>
      rw [written] at none
      cases none

end Realizes

end ImagePipeline
