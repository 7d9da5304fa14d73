import ImagePipeline.Proofs.Template.Rewriting
import ImagePipeline.Proofs.Text.Blank
import ImagePipeline.Proofs.Text.Lines

/-! What is put into a template is never read as a part of it. A text may hold actions and line
breaks: rendering with a mark in its place, and putting the text for the mark afterwards, gives
the same. -/
namespace ImagePipeline.Text

/-- A text with `s` in the place of every `mark`. -/
def fillChars (mark : Char) (s : List Char) : List Char → List Char :=
  List.flatMap fun c => if c = mark then s else [c]

def fill (mark : Char) (s text : String) : String :=
  String.ofList (fillChars mark s.toList text.toList)

variable {mark : Char} {s text : List Char}

@[simp] theorem fillChars_mark : fillChars mark s [mark] = s := by simp [fillChars]

theorem fillChars_of_not_mem (absent : mark ∉ text) : fillChars mark s text = text := by
  induction text with
  | nil => rfl
  | cons c cs ih =>
    rw [List.mem_cons, not_or] at absent
    rw [fillChars, List.flatMap_cons, if_neg (Ne.symm absent.1), ← fillChars, ih absent.2]
    rfl

theorem eq_nil_of_fillChars (given : s ≠ []) (nothing : fillChars mark s text = []) :
    text = [] := by
  cases text with
  | nil => rfl
  | cons c cs =>
    rw [fillChars, List.flatMap_cons, List.append_eq_nil_iff] at nothing
    have head := nothing.1
    split at head
    · exact absurd head given
    · cases head

end ImagePipeline.Text

namespace ImagePipeline.Template

/-- A text in the place of a mark. -/
def Rewriting.filling (mark : Char) (s : List Char) (apart : mark ≠ '\n') (given : s ≠ []) :
    Rewriting where
  apply := Text.fillChars mark s
  append _ _ := List.flatMap_append
  feed := Text.fillChars_of_not_mem (by simpa using apart)
  inhabited _ := Text.eq_nil_of_fillChars given

/-- The text between the actions of a line stands in the line. -/
theorem subset_of_literal {inAction : Bool} {started line s : List Char}
    (member : .literal s ∈ pieces inAction started line) : s ⊆ started ++ line := by
  fun_induction pieces inAction started line with
  | case1 started =>
    obtain rfl : s = started.reverse := by simpa using member
    simp
  | case2 => simp at member
  | case3 started rest ih =>
    rcases List.mem_cons.mp member with first | behind
    · obtain rfl := Piece.literal.inj first
      exact fun c inside => List.mem_append_left _ (List.mem_reverse.mp inside)
    · intro c inside
      have := ih behind inside
      simp_all
  | case4 started rest ih =>
    have behind : .literal s ∈ pieces false [] rest := by simpa using member
    intro c inside
    have := ih behind inside
    simp_all
  | case5 inAction started c rest _ _ ih =>
    intro d inside
    have := ih member inside
    simp only [List.mem_append, List.mem_cons] at this ⊢
    tauto

section Insertion

variable {template name : String} {c d : Context} {mark : Char} {s : List Char}
  {apart : mark ≠ '\n'} {given : s ≠ []}

/-- What is rendered with a mark in the place of a text, where the mark stands nowhere in the
template. -/
theorem render_filled (apart : mark ≠ '\n') (given : s ≠ []) (unwritten : mark ∉ template.toList)
    (base : d.base = c.base) (flags : d.flags = c.flags)
    (packages : d.packages = c.packages.map (Rewriting.filling mark s apart given).string)
    (values : ∀ name, d.value? name =
      (c.value? name).map (Rewriting.filling mark s apart given).string) :
    render template d = (render template c).map (Rewriting.filling mark s apart given).string := by
  refine render_rewritten packages fun x line _ => ?_
  unfold ReadLine.Agrees
  split
  · intro p member
    cases p with
    | literal text =>
      refine Text.fillChars_of_not_mem fun inside => unwritten ?_
      exact Text.lines_subset _ _ line (by simpa using subset_of_literal member inside)
    | action => exact fun name _ => values (String.ofList name)
    | unclosed => trivial
  · rename_i guard _
    cases guard with
    | flag name negated => exact congrArg (List.lookup name) flags
    | baseIn names => exact base
  · trivial
  · trivial
  · trivial

theorem string_of_not_mem {text : String} (absent : mark ∉ text.toList) :
    (Rewriting.filling mark s apart given).string text = text := by
  rw [Rewriting.string]
  exact (congrArg String.ofList (Text.fillChars_of_not_mem absent)).trans String.ofList_toList

theorem map_string_of_not_mem {texts : List String} (absent : ∀ text ∈ texts, mark ∉ text.toList) :
    texts.map (Rewriting.filling mark s apart given).string = texts :=
  (List.map_congr_left fun text member => string_of_not_mem (absent text member)).trans
    (List.map_id texts)

theorem string_singleton :
    (Rewriting.filling mark s apart given).string (String.singleton mark) = String.ofList s := by
  rw [Rewriting.string, String.toList_singleton]
  exact congrArg String.ofList Text.fillChars_mark

/-- A value in which the mark does not occur stays as it is. -/
theorem value_of_not_mem (words : mark ∉ "true".toList ∧ mark ∉ "false".toList)
    (absent : ∀ text, c.values.lookup name = some text → mark ∉ text.toList) :
    c.value? name = (c.value? name).map (Rewriting.filling mark s apart given).string := by
  rw [Context.value?]
  cases found : c.values.lookup name with
  | some text => exact congrArg some (string_of_not_mem (absent text found)).symm
  | none =>
    cases c.flag? name with
    | none => rfl
    | some on =>
      cases on with
      | true => exact congrArg some (string_of_not_mem words.1).symm
      | false => exact congrArg some (string_of_not_mem words.2).symm

end Insertion

theorem Context.value_withValue (c : Context) (name value other : String) :
    (c.withValue name value).value? other =
      if other = name then some value else c.value? other := by
  rw [value?, withValue, List.lookup_cons]
  by_cases same : other = name
  · simp [same]
  · rw [if_neg same, beq_eq_false_iff_ne.mpr same]
    rfl

theorem Context.packages_insert (c : Context) {before after : List String} {v : String}
    (trimmed : Text.trimmed v = v) (given : v ≠ "") :
    (c.withPackages (before ++ v :: after)).packages =
      (c.withPackages before).packages ++ v :: (c.withPackages after).packages := by
  simp [withPackages, trimmed, given]

theorem Context.not_mem_packages (c : Context) {packages : List String} {ch : Char}
    (absent : ∀ p ∈ packages, ch ∉ p.toList) :
    ∀ p ∈ (c.withPackages packages).packages, ch ∉ p.toList := by
  intro p kept inside
  obtain ⟨whole, member, rfl⟩ := List.mem_map.mp (List.mem_of_mem_filter kept)
  rw [Text.trimmed, String.toList_ofList] at inside
  exact absent whole member (Text.trim_subset _ inside)

/-- Inserted text is never interpreted. Take a character that is not blank and stands nowhere in
a template, in other values, in packages or in the words for flags. Rendering with any text as
the value of a name, or as one of the packages, gives what rendering with this character gives,
with the text in its place; and it fails just if that does, with the same fault. -/
theorem inserted_text_inert (c : Context) (template : String) (mark : Char) (v : String)
    (visible : Text.isBlank mark = false) (unwritten : mark ∉ template.toList)
    (words : mark ∉ "true".toList ∧ mark ∉ "false".toList) (given : v ≠ "") :
    (∀ name, (∀ other text, other ≠ name → c.values.lookup other = some text →
          mark ∉ text.toList) → (∀ p ∈ c.packages, mark ∉ p.toList) →
        render template (c.withValue name v) =
          (render template (c.withValue name (String.singleton mark))).map (Text.fill mark v)) ∧
      ∀ before after, Text.trimmed v = v →
        (∀ other text, c.values.lookup other = some text → mark ∉ text.toList) →
        (∀ p ∈ before ++ after, mark ∉ p.toList) →
          render template (c.withPackages (before ++ v :: after)) =
            (render template (c.withPackages (before ++ String.singleton mark :: after))).map
              (Text.fill mark v) := by
  have apart : mark ≠ '\n' := by
    rintro rfl
    cases visible
  have inhabited : v.toList ≠ [] := fun nothing => given (String.toList_eq_nil_iff.mp nothing)
  refine ⟨fun name others packages => ?_, fun before after trimmed values packages => ?_⟩
  · refine render_filled apart inhabited unwritten rfl rfl
      (map_string_of_not_mem packages).symm fun other => ?_
    rw [Context.value_withValue, Context.value_withValue]
    split
    · rw [Option.map_some, string_singleton, String.ofList_toList]
    · rename_i different
      exact value_of_not_mem words fun text => others other text different
  · have single : Text.trimmed (String.singleton mark) = String.singleton mark := by
      rw [Text.trimmed, String.toList_singleton, Text.trim_of_visible (by simpa using visible)]
      rfl
    have one : String.singleton mark ≠ "" := String.singleton_ne_empty
    obtain ⟨front, back⟩ := List.forall_mem_append.mp packages
    refine render_filled apart inhabited unwritten rfl rfl ?_ fun other =>
      value_of_not_mem words (values other)
    rw [c.packages_insert trimmed given, c.packages_insert single one, List.map_append,
      List.map_cons, string_singleton, String.ofList_toList,
      map_string_of_not_mem (c.not_mem_packages front),
      map_string_of_not_mem (c.not_mem_packages back)]

/-- A line for each package, with a remark in front. -/
def remarkTemplate : String :=
  "\x7b\x7b- range .AdditionalPackages \x7d\x7d\n# \x7b\x7b .Remark \x7d\x7d\n" ++
    "RUN apk add \x7b\x7b . \x7d\x7d\n\x7b\x7b- end \x7d\x7d\n"

def remarkContext : Context where
  base := .alpine320
  values := [("Remark", "tools")]
  flags := []
  packages := ["curl"]

/-- A remark that would close the loop, and a package that would be an action. -/
theorem remark_inserted_inert :
    render remarkTemplate (remarkContext.withValue "Remark" "a\n\x7b\x7b- end \x7d\x7d") =
        .ok "# a\n\x7b\x7b- end \x7d\x7d\nRUN apk add curl\n" ∧
      render remarkTemplate (remarkContext.withPackages ["git", "\x7b\x7b . \x7d\x7d"]) =
        .ok "# tools\nRUN apk add git\n# tools\nRUN apk add \x7b\x7b . \x7d\x7d\n" := by
  constructor
  · rw [(inserted_text_inert remarkContext remarkTemplate '%' "a\n\x7b\x7b- end \x7d\x7d"
      (by decide +kernel) (by decide +kernel) (by decide +kernel) (by decide +kernel)).1 "Remark"
      (by
        intro other text different found
        simp [remarkContext, List.lookup_cons, beq_eq_false_iff_ne.mpr different] at found)
      (by decide +kernel)]
    decide +kernel
  · have values : ∀ other text, remarkContext.values.lookup other = some text →
        '%' ∉ text.toList := by
      intro other text found
      by_cases same : other = "Remark"
      · subst same
        cases found
        decide +kernel
      · simp [remarkContext, List.lookup_cons, beq_eq_false_iff_ne.mpr same] at found
    have inert := (inserted_text_inert remarkContext remarkTemplate '%' "\x7b\x7b . \x7d\x7d"
      (by decide +kernel) (by decide +kernel) (by decide +kernel) (by decide +kernel)).2 ["git"] []
      (by decide +kernel) values (by decide +kernel)
    rw [show ["git", "\x7b\x7b . \x7d\x7d"] = ["git"] ++ "\x7b\x7b . \x7d\x7d" :: [] from rfl, inert]
    decide +kernel

end ImagePipeline.Template
