import ImagePipeline.Path.Pattern

/-! What patterns of paths describe. A text without marks describes itself. With two stars, a slash
and a star behind its last slash it describes all paths that start with it, however deep they go. -/
namespace ImagePipeline.PathPattern

variable {text path : List Char} {pieces : PathPattern}

/-- The characters that do not stand for themselves in patterns. -/
def marks : List Char := ['*', '?', '[']

def isPlain (text : List Char) : Bool := text.all fun c => !marks.contains c

theorem isPlain_cons {c : Char} :
    isPlain (c :: text) = true ↔ c ∉ marks ∧ isPlain text = true := by
  rw [isPlain, List.all_cons, Bool.and_eq_true, Bool.not_eq_true', ← Bool.not_eq_true,
    List.contains_iff_mem, isPlain]

/-- The pattern of a text in front of another one. -/
def literally (text : List Char) (pieces : PathPattern) : PathPattern :=
  text.map .char ++ pieces

/-! ### What is accepted -/

theorem accepts_literally :
    (literally text pieces).accepts path = true ↔
      ∃ rest, path = text ++ rest ∧ pieces.accepts rest = true := by
  induction text generalizing path with
  | nil => simp [literally]
  | cons c text ih =>
    simp only [literally, List.map_cons, List.cons_append] at ih ⊢
    cases path with
    | nil => simp [accepts]
    | cons d path =>
      rw [accepts, Bool.and_eq_true, beq_iff_eq, ih]
      constructor
      · rintro ⟨rfl, rest, rfl, accepted⟩
        exact ⟨rest, rfl, accepted⟩
      · rintro ⟨rest, same, accepted⟩
        obtain ⟨rfl, rfl⟩ := List.cons.inj same
        exact ⟨rfl, rest, rfl, accepted⟩

theorem accepts_nil : accepts [] path = true ↔ path = [] := List.isEmpty_iff

/-- The end of every path is nothing. -/
theorem nil_mem_ends (path : List Char) : [] ∈ ends path := by
  induction path with
  | nil => exact List.mem_singleton_self _
  | cons c path ih => exact List.mem_cons_of_mem _ ih

theorem accepts_anything (path : List Char) : accepts [.anything] path = true :=
  List.any_eq_true.mpr ⟨[], nil_mem_ends path, rfl⟩

/-- There may be no directory to pass. -/
theorem accepts_anywhere (path : List Char) : accepts [.directories, .anything] path = true :=
  List.any_eq_true.mpr ⟨path, List.mem_cons_self, accepts_anything path⟩

/-! ### What is read -/

/-- Whether a component starts behind a text. -/
def startsBehind (starts : Bool) (text : List Char) : Bool :=
  text.foldl (fun _ c => c == '/') starts

theorem read?_literally (starts : Bool) (plain : isPlain text = true) (rest : List Char) :
    read? starts (text ++ rest) =
      (read? (startsBehind starts text) rest).map (literally text) := by
  induction text generalizing starts with
  | nil => exact Option.map_id'.symm
  | cons c text ih =>
    rw [isPlain_cons] at plain
    have apart : ∀ mark ∈ marks, c ≠ mark := by
      rintro _ marked rfl
      exact plain.1 marked
    have unmarked : (c == '?' || c == '[') = false := by
      simpa using ⟨apart '?' (by decide), apart '[' (by decide)⟩
    rw [List.cons_append, read?, unmarked, if_neg Bool.false_ne_true, ih _ plain.2, Option.map_map]
    · rfl
    all_goals intros
    all_goals exact apart '*' (by decide) ‹_›

/-- A text without marks, read as a pattern. -/
theorem ofText?_literal {s : String} (plain : isPlain s.toList = true) :
    ofText? s = some (literally s.toList []) := by
  have read := read?_literally true plain []
  rwa [List.append_nil] at read

/-- A directory with all below it, read as a pattern. -/
theorem ofText?_below {s : String} (plain : isPlain s.toList = true)
    (closed : startsBehind true s.toList = true) :
    ofText? (s ++ "**/*") = some (literally s.toList [.directories, .anything]) := by
  have read := read?_literally true plain "**/*".toList
  rw [closed] at read
  rw [ofText?, String.toList_append, read]
  rfl

/-! ### Patterns as they are written -/

/-- A written pattern that describes a path. -/
def Describes (pattern path : String) : Prop :=
  ∃ p, ofText? pattern = some p ∧ p.accepts path.toList = true

theorem describes_literal_iff {s path : String} (plain : isPlain s.toList = true) :
    Describes s path ↔ path = s := by
  simp only [Describes, ofText?_literal plain, Option.some.injEq, exists_eq_left',
    accepts_literally, accepts_nil, exists_eq_right, List.append_nil, String.toList_inj]

theorem describes_below_iff {s path : String} (plain : isPlain s.toList = true)
    (closed : startsBehind true s.toList = true) :
    Describes (s ++ "**/*") path ↔ s.toList <+: path.toList := by
  simp only [Describes, ofText?_below plain closed, Option.some.injEq, exists_eq_left',
    accepts_literally, accepts_anywhere, and_true]
  exact exists_congr fun _ => eq_comm

end ImagePipeline.PathPattern
