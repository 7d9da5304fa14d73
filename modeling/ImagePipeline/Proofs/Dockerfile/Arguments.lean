import ImagePipeline.Proofs.Text.Blank
import ImagePipeline.Proofs.Text.Pieces
import ImagePipeline.Text.Lines

/-! Build arguments of a Dockerfile. An argument can be used in the stage that declares it, behind
the declaration; the scan finds the uses of arguments that are declared elsewhere only. -/
namespace ImagePipeline.Dockerfile

/-- The lines of a Dockerfile without the blanks around them. -/
def trimmedLines (content : String) : List (List Char) :=
  (Text.lines content.toList).map Text.trim

def startsStage (line : List Char) : Bool := Text.startsWith "FROM ".toList line

/-- The argument that a line declares, with a default or without. -/
def declared? (line : List Char) : Option (List Char) :=
  (Text.afterPrefix? "ARG ".toList line).map fun rest =>
    Text.trim ((Text.splitAt '=' rest).headD [])

/-- The names between `$` with an opening brace and the next closing brace. Inside of a use there
is the part of the name that has been read, in reverse. -/
def usesFrom : Option (List Char) → List Char → List (List Char)
  | none, '$' :: '{' :: rest => usesFrom (some []) rest
  | none, _ :: rest => usesFrom none rest
  | some name, '}' :: rest => name.reverse :: usesFrom none rest
  | some name, c :: rest => usesFrom (some (c :: name)) rest
  | _, [] => []

def uses (line : List Char) : List (List Char) := usesFrom none line

/-- A use of an argument that its stage has not declared. -/
structure Misuse where
  stage : List Char
  name : List Char
  line : List Char
  deriving DecidableEq, Repr

def Misuse.message (m : Misuse) : String :=
  "[" ++ String.ofList m.stage ++ "] $\x7b" ++ String.ofList m.name ++ "\x7d in: " ++
    String.ofList m.line

/-- The misuses in lines behind the start of a stage, with the arguments that the stage has
declared so far. -/
def misuses (declared : List (List Char)) :
    List Char → List (List Char) → List (List Char) → List Misuse
  | _, _, [] => []
  | stage, scope, line :: lines =>
    if startsStage line then misuses declared line [] lines
    else match declared? line with
      | some name => misuses declared stage (name :: scope) lines
      | none =>
        ((uses line).filter fun name => declared.contains name && !scope.contains name).map
          (fun name => ⟨stage, name, line⟩) ++ misuses declared stage scope lines

def outOfScope (content : String) : List Misuse :=
  let lines := trimmedLines content
  misuses (lines.filterMap declared?) [] [] lines

/-- In front of every use of an argument that the lines declare stands a line that declares it,
and no stage starts behind that line and up to the use. -/
def UsedInScope (lines : List (List Char)) : Prop :=
  ∀ front line after, lines = front ++ line :: after →
    ∀ name ∈ uses line, name ∈ lines.filterMap declared? →
      startsStage line = false ∧
        ∃ earlier declaration between, front = earlier ++ declaration :: between ∧
          declared? declaration = some name ∧ ∀ other ∈ between, startsStage other = false

/-! ### Texts in front of others -/

/-- Every use in a text has ended, and none begins with its last character; the flag tells
whether the text starts inside of a use. -/
def settled : Bool → List Char → Bool
  | false, '$' :: '{' :: rest => settled true rest
  | false, ['$'] => false
  | false, _ :: rest => settled false rest
  | true, '}' :: rest => settled false rest
  | true, _ :: rest => settled true rest
  | inside, [] => !inside

/-- A character that starts no use is passed. -/
theorem usesFrom_pass {c : Char} {rest : List Char} (apart : c = '$' → rest.head? ≠ some '{') :
    usesFrom none (c :: rest) = usesFrom none rest := by
  rw [usesFrom]
  rintro tail rfl rfl
  exact apart rfl rfl

theorem settled_pass {c : Char} {rest : List Char}
    (apart : c = '$' → rest ≠ [] ∧ rest.head? ≠ some '{') :
    settled false (c :: rest) = settled false rest := by
  rw [settled]
  · rintro tail rfl rfl
    exact (apart rfl).2 rfl
  · rintro rfl rfl
    exact (apart rfl).1 rfl

/-- A settled text and the text behind it are read apart. -/
theorem usesFrom_append {inside : Option (List Char)} {s : List Char}
    (ended : settled inside.isSome s = true) (t : List Char) :
    usesFrom inside (s ++ t) = usesFrom inside s ++ uses t := by
  fun_induction usesFrom inside s with
  | case1 rest ih => exact ih (by simpa [settled] using ended)
  | case2 c rest apart ih =>
    have start : c = '$' → rest ≠ [] ∧ rest.head? ≠ some '{' := by
      rintro rfl
      refine ⟨?_, fun head => ?_⟩
      · rintro rfl
        cases ended
      · obtain ⟨tail, rfl⟩ := List.head?_eq_some_iff.mp head
        exact apart tail rfl rfl
    rw [Option.isSome_none, settled_pass start] at ended
    rw [List.cons_append, usesFrom_pass, ih ended]
    intro dollar head
    obtain ⟨inhabited, other⟩ := start dollar
    exact other (by rwa [List.head?_append_of_ne_nil _ inhabited] at head)
  | case3 name rest ih => exact congrArg (name.reverse :: ·) (ih (by simpa [settled] using ended))
  | case4 name c rest apart ih =>
    rw [List.cons_append, usesFrom]
    · refine ih ?_
      rwa [Option.isSome_some, settled] at ended
      exact apart
    · exact apart
  | case5 inside =>
    cases inside with
    | none => rfl
    | some name => cases ended

theorem settled_of_not_mem {s : List Char} (absent : '$' ∉ s) : settled false s = true := by
  induction s with
  | nil => rfl
  | cons c cs ih =>
    rw [List.mem_cons, not_or] at absent
    rw [settled_pass fun same => absurd same.symm absent.1]
    exact ih absent.2

theorem uses_of_not_mem {s : List Char} (absent : '$' ∉ s) : uses s = [] := by
  induction s with
  | nil => rfl
  | cons c cs ih =>
    rw [List.mem_cons, not_or] at absent
    rw [uses, usesFrom_pass fun same => absurd same.symm absent.1]
    exact ih absent.2

/-- A use ends with a brace. -/
theorem usesFrom_open {inside : Option (List Char)} {t : List Char} (absent : '}' ∉ t) :
    usesFrom inside t = [] := by
  fun_induction usesFrom inside t <;> simp_all

theorem usesFrom_append_open {inside : Option (List Char)} {s t : List Char} (absent : '}' ∉ t) :
    usesFrom inside (s ++ t) = usesFrom inside s := by
  fun_induction usesFrom inside s with
  | case1 rest ih => exact ih
  | case2 c rest apart ih =>
    rw [List.cons_append]
    by_cases start : c = '$' ∧ (rest ++ t).head? = some '{'
    · obtain ⟨rfl, head⟩ := start
      cases rest with
      | nil =>
        obtain ⟨tail, rfl⟩ := List.head?_eq_some_iff.mp head
        change usesFrom (some []) tail = []
        exact usesFrom_open fun member => absent (List.mem_cons_of_mem _ member)
      | cons d rest =>
        obtain rfl : d = '{' := by simpa using head
        exact absurd rfl (apart rest rfl)
    · rw [usesFrom_pass fun dollar head => start ⟨dollar, head⟩, ih]
  | case3 name rest ih => exact congrArg (name.reverse :: ·) ih
  | case4 name c rest apart ih =>
    rw [List.cons_append, usesFrom]
    · exact ih
    · exact apart
  | case5 inside => exact usesFrom_open absent

theorem uses_trim (s : List Char) : uses (Text.trim s) = uses s := by
  obtain ⟨before, after, whole, front, back⟩ := Text.trim_between s
  have dollar : '$' ∉ before := fun member => by cases front _ member
  have brace : '}' ∉ after := fun member => by cases back _ member
  have start : settled (none : Option (List Char)).isSome before = true :=
    settled_of_not_mem dollar
  calc uses (Text.trim s)
      = uses before ++ uses (Text.trim s) := by rw [uses_of_not_mem dollar, List.nil_append]
    _ = uses (before ++ Text.trim s) := (usesFrom_append start _).symm
    _ = uses (before ++ Text.trim s ++ after) := (usesFrom_append_open brace).symm
    _ = uses s := congrArg uses whole.symm

/-- Whatever stands behind the text, it declares what it declares alone. -/
def declaresAlone (s : List Char) : Bool :=
  Text.clashes "ARG ".toList s ||
    (Text.afterPrefix? "ARG ".toList s).any fun rest => rest.contains '='

theorem declared_append {s : List Char} (alone : declaresAlone s = true) (t : List Char) :
    declared? (s ++ t) = declared? s := by
  rw [declaresAlone, Bool.or_eq_true] at alone
  rcases alone with clash | default
  · have apart := Text.afterPrefix_of_clash clash []
    rw [List.append_nil] at apart
    rw [declared?, declared?, Text.afterPrefix_of_clash clash t, apart]
  · obtain ⟨rest, found, marked⟩ := (Option.any_eq_true _ _).mp default
    rw [declared?, declared?, Text.afterPrefix_append found t, found, Option.map_some,
      Option.map_some, Text.headD_splitAt_append (List.contains_iff_mem.mp marked)]

theorem startsStage_of_clash {s : List Char} (clash : Text.clashes "FROM ".toList s = true)
    (t : List Char) : startsStage (s ++ t) = false := by
  rw [startsStage, Text.startsWith, Text.afterPrefix_of_clash clash t]
  rfl

/-! ### Scopes -/

/-- The arguments in scope behind a line. -/
def scopeAfter (scope : List (List Char)) (line : List Char) : List (List Char) :=
  if startsStage line then []
  else match declared? line with
    | some name => name :: scope
    | none => scope

theorem scopeAfter_append {s : List Char} (alone : declaresAlone s = true)
    (clash : Text.clashes "FROM ".toList s = true) (scope : List (List Char)) (t : List Char) :
    scopeAfter scope (s ++ t) = scopeAfter scope s := by
  have front := startsStage_of_clash clash []
  rw [List.append_nil] at front
  rw [scopeAfter, scopeAfter, startsStage_of_clash clash t, front, declared_append alone t]

/-- Every use of a declared argument in these lines is one in scope; a line that starts a stage
has none. -/
def Scoped (declared : List (List Char)) : List (List Char) → List (List Char) → Prop
  | _, [] => True
  | scope, line :: lines =>
    (∀ name ∈ uses line, name ∈ declared → startsStage line = false ∧ name ∈ scope) ∧
      Scoped declared (scopeAfter scope line) lines

theorem scopeAfter_mono {scope wider : List (List Char)} (sub : scope ⊆ wider) (line : List Char) :
    scopeAfter scope line ⊆ scopeAfter wider line := by
  unfold scopeAfter
  split
  · exact List.Subset.refl []
  · split
    · exact List.cons_subset_cons _ sub
    · exact sub

namespace Scoped

variable {declared scope : List (List Char)} {lines more : List (List Char)}

theorem append (front : Scoped declared scope lines)
    (back : Scoped declared (lines.foldl scopeAfter scope) more) :
    Scoped declared scope (lines ++ more) := by
  induction lines generalizing scope with
  | nil => exact back
  | cons line lines ih => exact ⟨front.1, ih front.2 back⟩

theorem fewer {others : List (List Char)} (inScope : Scoped declared scope lines)
    (sub : others ⊆ declared) : Scoped others scope lines := by
  induction lines generalizing scope with
  | nil => trivial
  | cons line lines ih =>
    exact ⟨fun name used member => inScope.1 name used (sub member), ih inScope.2⟩

theorem at_line {front after : List (List Char)} {line name : List Char}
    (inScope : Scoped declared scope (front ++ line :: after)) (used : name ∈ uses line)
    (member : name ∈ declared) :
    startsStage line = false ∧ name ∈ front.foldl scopeAfter scope := by
  induction front generalizing scope with
  | nil => exact inScope.1 name used member
  | cons first front ih => exact ih inScope.2

/-- The scan finds nothing where every use is in scope. -/
theorem no_misuse (inScope : Scoped declared scope lines) (stage : List Char) :
    misuses declared stage scope lines = [] := by
  induction lines generalizing stage scope with
  | nil => rfl
  | cons line lines ih =>
    obtain ⟨here, behind⟩ := inScope
    rw [scopeAfter] at behind
    rw [misuses]
    split
    · rename_i starts
      rw [if_pos starts] at behind
      exact ih behind line
    · rename_i starts
      rw [if_neg starts] at behind
      split <;> rename_i declares <;> rw [declares] at behind
      · exact ih behind stage
      · rw [ih behind stage, List.append_nil, List.map_eq_nil_iff, List.filter_eq_nil_iff]
        intro name used
        simpa using fun member => (here name used member).2

end Scoped

/-- What is in scope behind lines that nothing is in scope of has been declared in them, behind
the last start of a stage. -/
theorem declared_of_mem_scope {front : List (List Char)} {name : List Char}
    (member : name ∈ front.foldl scopeAfter []) :
    ∃ earlier declaration between, front = earlier ++ declaration :: between ∧
      declared? declaration = some name ∧ ∀ other ∈ between, startsStage other = false := by
  induction front using List.reverseRecOn with
  | nil => cases member
  | append_singleton front line ih =>
    rw [List.foldl_append, List.foldl_cons, List.foldl_nil, scopeAfter] at member
    split at member
    · cases member
    · rename_i starts
      have kept (inside : name ∈ front.foldl scopeAfter []) :
          ∃ earlier declaration between, front ++ [line] = earlier ++ declaration :: between ∧
            declared? declaration = some name ∧
              ∀ other ∈ between, startsStage other = false := by
        obtain ⟨earlier, declaration, between, rfl, declares, stages⟩ := ih inside
        refine ⟨earlier, declaration, between ++ [line], by simp, declares, ?_⟩
        exact List.forall_mem_append.mpr ⟨stages, by simpa using starts⟩
      split at member <;> rename_i declares
      · rcases List.mem_cons.mp member with rfl | inside
        · exact ⟨front, line, [], rfl, declares, by simp⟩
        · exact kept inside
      · exact kept member

theorem Scoped.usedInScope {declared lines : List (List Char)} (inScope : Scoped declared [] lines)
    (all : lines.filterMap declared? ⊆ declared) : UsedInScope lines := by
  rintro front line after rfl name used member
  obtain ⟨stays, inside⟩ := inScope.at_line used (all member)
  exact ⟨stays, declared_of_mem_scope inside⟩

/-- A stage does not see what an earlier one has declared. -/
example : (outOfScope
    "FROM alpine AS base\nARG TARGETARCH=amd64\nFROM base AS tools\nRUN echo $\x7bTARGETARCH\x7d\n").map
      Misuse.message =
    ["[FROM base AS tools] $\x7bTARGETARCH\x7d in: RUN echo $\x7bTARGETARCH\x7d"] := by
  decide +kernel

end ImagePipeline.Dockerfile
