import ImagePipeline.Proofs.Template.Scopes

/-! The texts that the context of a configuration can put in: those that are configured, trimmed
or whole, and others that are plain. What holds of plain texts and of parts of the configured
ones holds of all. -/
namespace ImagePipeline

variable {P : List Char → Prop}

/-- What holds of the texts that are configured, wherever the skeleton puts them in. -/
structure Config.Texts (P : List Char → Prop) (config : Config) : Prop where
  name : P config.name.toList
  version : P config.version.toList
  arch : ∀ arch ∈ config.base.architectures.head?, P arch.toList
  tools : ∀ entry ∈ config.tools.all, P entry.2.2.version.toList
  packages : ∀ p ∈ config.tools.packages, P p.toList

namespace Text

theorem Plain.join {s t : String} (front : Plain s.toList) (back : Plain t.toList) :
    Plain (s ++ t).toList := by
  rw [String.toList_append]
  exact front.append back

theorem padded_plain (width n : Nat) : Plain (padded 10 width n).toList := by
  have digits : ∀ c ∈ (padded 10 width n).toList, c.isDigit = true := by
    rw [padded, String.toList_ofList]
    intro c member
    rcases List.mem_append.mp member with zero | digit
    · rw [List.eq_of_mem_replicate zero]
      rfl
    · exact Nat.isDigit_of_mem_toDigits (by decide) (by decide) digit
  exact ⟨fun member => absurd (digits _ member) (by decide),
    fun member => absurd (digits _ member) (by decide)⟩

theorem Harmless.trimmed {s : String} (harmless : Harmless P) (given : P s.toList) :
    P (Text.trimmed s).toList := by
  rw [Text.trimmed, String.toList_ofList]
  exact harmless.subset _ _ (trim_subset _) given

/-- A text that ends no line. -/
def NoFeed (s : List Char) : Prop := '\n' ∉ s

instance (s : List Char) : Decidable (NoFeed s) := inferInstanceAs (Decidable (_ ∉ _))

theorem noFeed_harmless : Harmless NoFeed :=
  ⟨fun _ plain => plain.2, fun _ _ sub feed member => feed (sub member)⟩

end Text

section Times

open Text (Plain padded_plain)

theorem Date.text_plain (d : Date) : Plain d.text.toList := by
  have year : Plain (if 0 ≤ d.year && d.year ≤ 9999 then Text.padded 10 4 d.year.toNat
      else (if d.year < 0 then "-" else "+") ++ Text.padded 10 4 d.year.natAbs).toList := by
    split
    · exact padded_plain _ _
    · refine Plain.join ?_ (padded_plain _ _)
      split <;> decide
  have dash : Plain "-".toList := by decide
  exact (((year.join dash).join (padded_plain _ _)).join dash).join (padded_plain _ _)

theorem Timestamp.secondsText_plain (t : Timestamp) : Plain t.secondsText.toList := by
  have colon : Plain ":".toList := by decide
  have date := (Date.text_plain (Date.ofDays (t.seconds / 86400))).join
    (by decide : Plain "T".toList)
  exact ((((((date.join (padded_plain _ _)).join colon).join (padded_plain _ _)).join colon).join
    (padded_plain _ _)).join (by decide : Plain "".toList)).join (by decide : Plain "Z".toList)

end Times

theorem BaseImage.texts_plain (b : BaseImage) :
    Text.Plain b.name.toList ∧ Text.Plain b.image.toList := by
  cases b <;> decide

namespace Template

namespace Context.Texts

variable {c : Context} {name : String}

theorem withValue {value : String} (texts : c.Texts P) (name : String) (given : P value.toList) :
    (c.withValue name value).Texts P :=
  ⟨List.forall_mem_cons.mpr ⟨given, texts.values⟩, texts.packages⟩

theorem withFlag {on : Bool} (texts : c.Texts P) : (c.withFlag name on).Texts P :=
  ⟨texts.values, texts.packages⟩

theorem withPackages {packages : List String} (harmless : Text.Harmless P) (texts : c.Texts P)
    (given : ∀ p ∈ packages, P p.toList) : (c.withPackages packages).Texts P := by
  refine ⟨texts.values, fun p member => ?_⟩
  obtain ⟨q, among, rfl⟩ := List.mem_map.mp (List.mem_filter.mp member).1
  exact harmless.trimmed (given q among)

end Context.Texts

/-- The versions used unless others are given are plain. -/
theorem toolBindings_plain :
    ∀ b ∈ toolBindings, ∀ entry ∈ b.version, Text.Plain entry.2.toList := by
  decide +kernel

section OfConfig

variable {config : Config} {c : Context}

theorem tool_mem_all {category : ToolCategory} {name : String} {tool : Tool}
    (found : config.tool? category name = some tool) :
    (category, name, tool) ∈ config.tools.all := by
  refine List.mem_flatMap.mpr ⟨category, ?_, ?_⟩
  · cases category <;> decide
  · exact List.mem_map.mpr ⟨_, mem_of_lookup found, rfl⟩

theorem ToolBinding.bind_texts (harmless : Text.Harmless P) (texts : config.Texts P)
    (start : c.Texts P) {b : ToolBinding} (usual : ∀ entry ∈ b.version, P entry.2.toList) :
    (b.bind config c).Texts P := by
  unfold ToolBinding.bind
  dsimp only
  split
  · rename_i name version given
    refine start.withFlag.withValue name ?_
    have other : P version.toList := usual (name, version) given
    unfold versionIn
    split
    · rename_i tool found
      split
      · exact other
      · exact harmless.trimmed (texts.tools _ (tool_mem_all found))
    · exact other
  · exact start.withFlag

theorem bindings_texts (harmless : Text.Harmless P) (texts : config.Texts P) (start : c.Texts P)
    {bs : List ToolBinding} (usual : ∀ b ∈ bs, ∀ entry ∈ b.version, P entry.2.toList) :
    (bs.foldl (ToolBinding.bind config) c).Texts P := by
  induction bs generalizing c with
  | nil => exact start
  | cons b bs ih =>
    obtain ⟨first, others⟩ := List.forall_mem_cons.mp usual
    exact ih (ToolBinding.bind_texts harmless texts start first) others

/-- What holds of the configured texts and of plain ones holds in the context made of them. -/
theorem ofConfig_texts (harmless : Text.Harmless P) (texts : config.Texts P) (base : BaseImage)
    (time : Timestamp) : (Context.ofConfig config base time).Texts P := by
  have arch : P config.defaultArch.toList := by
    rw [Config.defaultArch, List.headD_eq_head?_getD]
    cases first : config.base.architectures.head? with
    | none => exact harmless.plain _ (by decide)
    | some arch => exact texts.arch arch first
  have start : (Context.ofBase base).Texts P := by
    obtain ⟨name, image⟩ := base.texts_plain
    have both : P base.name.toList ∧ P base.image.toList :=
      ⟨harmless.plain _ name, harmless.plain _ image⟩
    exact ⟨by simpa [Context.ofBase] using both.symm, by simp [Context.ofBase]⟩
  have named := (((start.withValue "Arch" arch).withValue "ProjectName" texts.name).withValue
    "ProjectVersion" texts.version).withValue "Timestamp"
      (harmless.plain _ time.secondsText_plain)
  have tools := bindings_texts harmless texts named fun b member entry given =>
    harmless.plain _ (toolBindings_plain b member entry given)
  exact tools.withFlag.withFlag.withFlag.withFlag.withFlag.withPackages harmless texts.packages

end OfConfig

end Template

end ImagePipeline
