import ScopeMerge.CommandLine.Invocation
import ScopeMerge.Proofs.Reporting
import Mathlib.Data.List.DropRight
import Mathlib.Data.List.TakeDrop

/-!
# Annotation names that an option lists

The further contribution annotations are given as one text, cut at its colons. The text
comes a long way: it is part of an assignment on the command line, which trims it once,
it is cut when the options are read, where each piece is trimmed once more, and the names
in it decide in every round whether the merges wait. A name that is lost or mangled on
the way makes them go ahead too early, and nothing complains.

* `Spells` says what pieces a list of names may be written in: the names in order, with
  blanks around them and blank pieces between them.
* `splitNames_trim`: blanks at the ends of the whole text belong to its outer pieces,
  so it makes no difference that the assignment trims them off.
* `splitNames_of_spells`: cutting the text gives the names back, by induction on how they
  were spelled.

From there on it is a matter of a single name: it is registered, so a new declaration
that carries it makes every request wait (`sweep_of_listed`).
-/

namespace ScopeMerge

/-! ## Blanks -/

namespace Text

variable {separator : Char} {before chars after : List Char}

/-- A text of nothing but blanks, possibly empty. -/
def Blank (text : String) : Prop :=
  ∀ c ∈ text.toList, isBlank c = true

theorem trimChars_append_left (h : ∀ c ∈ before, isBlank c = true) :
    trimChars (before ++ chars) = trimChars chars := by
  unfold trimChars
  rw [List.dropWhile_append_of_pos h]

theorem trimChars_append_right (h : ∀ c ∈ after, isBlank c = true) :
    trimChars (chars ++ after) = trimChars chars := by
  have hreverse : ∀ c ∈ after.reverse, isBlank c = true := fun c hc => h c (List.mem_reverse.mp hc)
  unfold trimChars
  rw [List.dropWhile_append]
  split
  · next hempty =>
    rw [List.isEmpty_iff.mp hempty, List.dropWhile_eq_nil_iff.mpr h]
  · rw [List.reverse_append, List.dropWhile_append_of_pos hreverse]

theorem trimChars_of_blank (h : ∀ c ∈ chars, isBlank c = true) : trimChars chars = [] := by
  unfold trimChars
  rw [List.dropWhile_eq_nil_iff.mpr h]
  rfl

/-- A text that neither begins nor ends with a blank is trimmed already. -/
theorem trimChars_eq_self (hfirst : ∀ c ∈ chars.head?, isBlank c = false)
    (hlast : ∀ c ∈ chars.getLast?, isBlank c = false) : trimChars chars = chars := by
  have hleft : chars.dropWhile isBlank = chars := by
    cases chars with
    | nil => rfl
    | cons c rest => exact List.dropWhile_cons_of_neg (by simp [hfirst c rfl])
  show (chars.dropWhile isBlank).rdropWhile isBlank = chars
  rw [hleft, List.rdropWhile_eq_self_iff]
  intro hne
  simp [hlast _ (List.getLast?_eq_getLast_of_ne_nil hne)]

/-- Trimming takes blanks off both ends and nothing else. -/
theorem exists_padding (chars : List Char) :
    ∃ before after, (∀ c ∈ before, isBlank c = true) ∧ (∀ c ∈ after, isBlank c = true) ∧
      chars = before ++ trimChars chars ++ after := by
  refine ⟨chars.takeWhile isBlank, (chars.dropWhile isBlank).rtakeWhile isBlank,
    fun c hc => List.mem_takeWhile_imp hc, fun c hc => ?_, ?_⟩
  · exact List.mem_rtakeWhile_imp hc
  · show chars = _ ++ (chars.dropWhile isBlank).rdropWhile isBlank ++ _
    rw [List.append_assoc, List.rdropWhile_append_rtakeWhile, List.takeWhile_append_dropWhile]

/-! ## Pieces -/

theorem splitChars_eq_splitOn (separator : Char) (chars : List Char) :
    splitChars separator chars = chars.splitOn separator := by
  induction chars with
  | nil => rfl
  | cons c rest ih =>
      rw [splitChars, List.splitOn_cons_eq_if_modifyHead, ih]
      simp only [beq_iff_eq]

theorem pieces_intercalate {parts : List String} (hne : parts ≠ [])
    (h : ∀ part ∈ parts, ':' ∉ part.toList) :
    pieces ':' (String.intercalate ":" parts) = parts := by
  have hcolon : (":" : String).toList = [':'] := rfl
  unfold pieces
  rw [splitChars_eq_splitOn, String.toList_intercalate, hcolon,
    List.splitOn_intercalate ':' (by simpa using h) (by simpa using hne), List.map_map]
  simp [Function.comp_def]

/-- Blanks in front of a text belong to its first piece. -/
theorem trimmed_splitOn_append_left (h : ∀ c ∈ before, isBlank c = true)
    (hseparator : isBlank separator = false) :
    ((before ++ chars).splitOn separator).map trimChars =
      (chars.splitOn separator).map trimChars := by
  have hbefore : separator ∉ before := fun hin => by simp [h separator hin] at hseparator
  by_cases hmem : separator ∈ chars
  · obtain ⟨first, rest, rfl, hfirst⟩ := List.eq_append_cons_of_mem hmem
    rw [← List.append_assoc, List.splitOn_append_cons_self, List.splitOn_append_cons_self,
      List.splitOn_eq_singleton hfirst, List.splitOn_eq_singleton (by simp [hbefore, hfirst])]
    simp [trimChars_append_left h]
  · rw [List.splitOn_eq_singleton hmem, List.splitOn_eq_singleton (by simp [hbefore, hmem])]
    simp [trimChars_append_left h]

/-- And those behind it to the last. -/
theorem trimmed_splitOn_append_right (h : ∀ c ∈ after, isBlank c = true)
    (hseparator : isBlank separator = false) :
    ((chars ++ after).splitOn separator).map trimChars =
      (chars.splitOn separator).map trimChars := by
  have hafter : separator ∉ after := fun hin => by simp [h separator hin] at hseparator
  by_cases hmem : separator ∈ chars
  · -- the last separator is the first one from behind
    obtain ⟨last, rest, hsplit, hlast⟩ :=
      List.eq_append_cons_of_mem (List.mem_reverse.mpr hmem)
    obtain rfl : chars = rest.reverse ++ separator :: last.reverse := by
      rw [← List.reverse_reverse chars, hsplit]
      simp
    have hend : separator ∉ last.reverse := by simpa using hlast
    rw [List.append_assoc, List.cons_append, List.splitOn_append_cons_self,
      List.splitOn_append_cons_self, List.splitOn_eq_singleton hend,
      List.splitOn_eq_singleton (List.not_mem_append hend hafter)]
    simp [trimChars_append_right h]
  · rw [List.splitOn_eq_singleton hmem, List.splitOn_eq_singleton (by simp [hafter, hmem])]
    simp [trimChars_append_right h]

theorem map_trim_pieces (separator : Char) (text : String) :
    (pieces separator text).map trim =
      ((text.toList.splitOn separator).map trimChars).map String.ofList := by
  unfold pieces trim
  rw [splitChars_eq_splitOn, List.map_map, List.map_map]
  simp [Function.comp_def]

/-- **Trimming a text changes none of its pieces** beyond what trimming them changes. -/
theorem map_trim_pieces_trim (text : String) (hseparator : isBlank separator = false) :
    (pieces separator (trim text)).map trim = (pieces separator text).map trim := by
  obtain ⟨before, after, hbefore, hafter, htext⟩ := exists_padding text.toList
  rw [map_trim_pieces, map_trim_pieces]
  calc (((trim text).toList.splitOn separator).map trimChars).map String.ofList
      = (((trimChars text.toList).splitOn separator).map trimChars).map String.ofList := by
        rw [trim, String.toList_ofList]
    _ = (((before ++ trimChars text.toList ++ after).splitOn separator).map trimChars).map
          String.ofList := by
        rw [trimmed_splitOn_append_right hafter hseparator,
          trimmed_splitOn_append_left hbefore hseparator]
    _ = _ := by rw [← htext]

/-- A text is cut at its first separator, whatever follows. -/
theorem cutAtFirst?_append {first : String} (h : separator ∉ first.toList) (rest : String) :
    cutAtFirst? separator (first ++ String.singleton separator ++ rest) = some (first, rest) := by
  have hplain : ∀ c ∈ first.toList, (c != separator) = true := fun c hc => by
    simpa using fun he : c = separator => h (he ▸ hc)
  have hchars : (first ++ String.singleton separator ++ rest).toList =
      first.toList ++ separator :: rest.toList := by simp
  unfold cutAtFirst?
  rw [hchars, List.span_eq_takeWhile_dropWhile, List.takeWhile_append_of_pos hplain,
    List.dropWhile_append_of_pos hplain, List.takeWhile_cons_of_neg (by simp),
    List.dropWhile_cons_of_neg (by simp)]
  simp

end Text

/-! ## Names written in a row -/

namespace Options

open Text

variable {names : List Name} {parts : List String}

/-- A name that can be written in a list: not the empty text, without a colon in it, and with no
blank at either end. -/
structure Listable (name : Name) : Prop where
  nonempty : name.text ≠ ""
  colonless : ':' ∉ name.text.toList
  first : ∀ c ∈ name.text.toList.head?, isBlank c = false
  last : ∀ c ∈ name.text.toList.getLast?, isBlank c = false

/-- The pieces of a text that lists some names in order, with blanks around them if need be, and
with blank pieces before, between and after them. -/
inductive Spells : List Name → List String → Prop
  | nil : Spells [] []
  | blank {names : List Name} {part : String} {parts : List String} (h : Blank part)
      (hrest : Spells names parts) : Spells names (part :: parts)
  | name {name : Name} {names : List Name} {before after : String} {parts : List String}
      (hbefore : Blank before) (hafter : Blank after) (hrest : Spells names parts) :
      Spells (name :: names) ((before ++ name.text ++ after) :: parts)

theorem colonless_of_blank {part : String} (h : Blank part) : ':' ∉ part.toList :=
  fun hin => absurd (h ':' hin) (by decide)

theorem Spells.colonless (h : Spells names parts) (hnames : ∀ name ∈ names, Listable name) :
    ∀ part ∈ parts, ':' ∉ part.toList := by
  induction h with
  | nil => exact fun part hpart => absurd hpart List.not_mem_nil
  | blank hblank _ ih =>
      exact List.forall_mem_cons.mpr ⟨colonless_of_blank hblank, ih hnames⟩
  | name hbefore hafter _ ih =>
      obtain ⟨hname, hnames⟩ := List.forall_mem_cons.mp hnames
      refine List.forall_mem_cons.mpr ⟨?_, ih hnames⟩
      simp [colonless_of_blank hbefore, colonless_of_blank hafter, hname.colonless]

/-- What is left of the pieces when the blanks are gone is the names. -/
theorem Spells.filter_trim (h : Spells names parts) (hnames : ∀ name ∈ names, Listable name) :
    (parts.map trim).filter (· ≠ "") = names.map (·.text) := by
  induction h with
  | nil => rfl
  | @blank names part parts hblank _ ih =>
      have hgone : trim part = "" := by
        unfold trim
        rw [trimChars_of_blank hblank]
      rw [List.map_cons, hgone, List.filter_cons_of_neg (by simp)]
      exact ih hnames
  | @name name names before after parts hbefore hafter _ ih =>
      obtain ⟨hname, hnames⟩ := List.forall_mem_cons.mp hnames
      have hkept : trim (before ++ name.text ++ after) = name.text := by
        unfold trim
        rw [String.toList_append, String.toList_append, trimChars_append_right hafter,
          trimChars_append_left hbefore, trimChars_eq_self hname.first hname.last,
          String.ofList_toList]
      rw [List.map_cons, hkept, List.filter_cons_of_pos (by simp [hname.nonempty]), ih hnames,
        List.map_cons]

/-- **A list of names is read as it was spelled.** -/
theorem splitNames_of_spells (h : Spells names parts) (hnames : ∀ name ∈ names, Listable name) :
    splitNames (String.intercalate ":" parts) = names := by
  have hall : ((parts.map trim).filter (· ≠ "")).map Name.mk = names := by
    rw [h.filter_trim hnames, List.map_map]
    exact List.map_id _
  by_cases hne : parts = []
  · subst hne
    cases h
    decide
  · unfold splitNames
    rw [pieces_intercalate hne (h.colonless hnames)]
    exact hall

/-- Blanks at the ends of the text make no difference. -/
theorem splitNames_trim (text : String) : splitNames (trim text) = splitNames text := by
  unfold splitNames
  rw [map_trim_pieces_trim text (by decide)]

/-! ## From the command line to the merge -/

/-- The assignment of any text to the list of annotations is read. -/
theorem readAssignment_contributingAnnotations (text : String) :
    CommandLine.readAssignment (contributingAnnotationsKey ++ "=" ++ text) =
      .ok (contributingAnnotationsKey, trim text) := by
  have hkey : trim contributingAnnotationsKey = contributingAnnotationsKey := by decide
  have hcut : cutAtFirst? '=' (contributingAnnotationsKey ++ "=" ++ text) =
      some (contributingAnnotationsKey, text) := cutAtFirst?_append (by decide) text
  unfold CommandLine.readAssignment
  rw [hcut]
  dsimp only
  rw [hkey, if_neg (by decide)]

theorem contributingAnnotations_ofMap {map : OptionMap} {value : String}
    (h : map.lookup contributingAnnotationsKey = some value) :
    (ofMap map).contributingAnnotations = splitNames value := by
  unfold ofMap
  rw [h]
  rfl

/-- **A declaration with a listed annotation makes every request wait** in the round in which its
file is new. -/
theorem sweep_of_listed {options : Options} {table : SymbolTable} {id : FileId} {d : Declaration}
    (hid : id ∈ table.introducedFiles) (hd : d ∈ table.inFile id) {name : Name}
    (hname : name ∈ options.contributingAnnotations) (hannotated : d.isAnnotatedWith name = true)
    (processed : ProcessedRequests) :
    Merge.hasNewContributions (.assemble options table) table = true ∧
      (Merge.sweep (.assemble options table) table processed).1.finalized = [] ∧
      (Merge.sweep (.assemble options table) table processed).2 = processed := by
  have hregistered : (Registry.assemble options table).contains name = true :=
    Registry.contains_assemble_iff.mpr
      (List.mem_append_left _ (List.mem_append_left _ (List.mem_append_right _ hname)))
  have hintroduced : d ∈ table.introducedDeclarations := List.mem_flatMap.mpr ⟨id, hid, hd⟩
  have hnew : Merge.hasNewContributions (.assemble options table) table = true :=
    Round.waits_of_introduced hintroduced hregistered hannotated
  unfold Merge.sweep
  rw [hnew, if_pos rfl]
  exact ⟨rfl, rfl, rfl⟩

/-- **A list of annotations on the command line makes merges wait.** However the names are spelled
out, the assignment is read; the options made from it, whatever else they say, list the names in
order; and with options that list them, a declaration of a new file that carries one of them
counts as a new contribution, so that nothing is finalized in that round. -/
theorem listed_annotations_defer_merges (hnames : ∀ name ∈ names, Listable name)
    (hspells : Spells names parts) :
    ∃ value,
      CommandLine.readAssignment
          (contributingAnnotationsKey ++ "=" ++ String.intercalate ":" parts) =
        .ok (contributingAnnotationsKey, value) ∧
      (∀ map : OptionMap, map.lookup contributingAnnotationsKey = some value →
        (ofMap map).contributingAnnotations = names) ∧
      ∀ options : Options, options.contributingAnnotations = names →
        ∀ (table : SymbolTable) (id : FileId) (d : Declaration),
          id ∈ table.introducedFiles → d ∈ table.inFile id →
          (∃ name ∈ names, d.isAnnotatedWith name = true) →
          ∀ processed,
            Merge.hasNewContributions (.assemble options table) table = true ∧
            (Merge.sweep (.assemble options table) table processed).1.finalized = [] ∧
            (Merge.sweep (.assemble options table) table processed).2 = processed := by
  refine ⟨trim (String.intercalate ":" parts), readAssignment_contributingAnnotations _, ?_, ?_⟩
  · intro map hmap
    rw [contributingAnnotations_ofMap hmap, splitNames_trim, splitNames_of_spells hspells hnames]
  · intro options hoptions table id d hid hd hany processed
    obtain ⟨name, hname, hannotated⟩ := hany
    exact sweep_of_listed hid hd (hoptions ▸ hname) hannotated processed

end Options

namespace Sample

def robotArm : Declaration :=
  { Declaration.topLevel .interface "com.app" "RobotArm" with
    annotations := [{ type := ⟨"org.lab.ContributesArm"⟩ }] }

/-- A first round in which a source with the second of two listed annotations is new. -/
def roboticsTable : SymbolTable :=
  Session.firstTable [.sources { files := [{ id := ⟨"Robot.kt"⟩, declarations := [robotArm] }] }]

/-- The two names in a text with blanks around the first and blank pieces before the second. -/
theorem listed_arm_defers_merges :
    ∃ value,
      CommandLine.readAssignment ("scopeweave-contributing-annotations=" ++
          " com.app.ContributesRobot\t: ::org.lab.ContributesArm") =
        .ok (Options.contributingAnnotationsKey, value) ∧
      (Options.ofMap [("scopeweave.CompatProcessor", "disabled"),
          (Options.contributingAnnotationsKey, value)]).contributingAnnotations =
        [⟨"com.app.ContributesRobot"⟩, ⟨"org.lab.ContributesArm"⟩] ∧
      (Merge.sweep (.assemble (.ofMap [("scopeweave.CompatProcessor", "disabled"),
          (Options.contributingAnnotationsKey, value)]) roboticsTable) roboticsTable
          {}).1.finalized = [] := by
  have hnames : ∀ name ∈ ([⟨"com.app.ContributesRobot"⟩, ⟨"org.lab.ContributesArm"⟩] : List Name),
      Options.Listable name := by
    intro name hname
    simp only [List.mem_cons, List.not_mem_nil, or_false] at hname
    rcases hname with rfl | rfl
    all_goals
      refine ⟨by decide, by decide, ?_, ?_⟩ <;>
        · rintro c ⟨⟩
          decide
  have blank : ∀ {text : String}, (text.toList.all Text.isBlank) = true → Text.Blank text :=
    fun h => List.all_eq_true.mp h
  have hspells : Options.Spells [⟨"com.app.ContributesRobot"⟩, ⟨"org.lab.ContributesArm"⟩]
      [" " ++ "com.app.ContributesRobot" ++ "\t", " ", "", "" ++ "org.lab.ContributesArm" ++ ""] :=
    .name (blank (by decide)) (blank (by decide)) <| .blank (blank (by decide)) <|
      .blank (blank (by decide)) <| .name (blank (by decide)) (blank (by decide)) .nil
  obtain ⟨value, hread, hmap, hwaits⟩ := Options.listed_annotations_defer_merges hnames hspells
  have hlookup : ([("scopeweave.CompatProcessor", "disabled"),
      (Options.contributingAnnotationsKey, value)] : OptionMap).lookup
        Options.contributingAnnotationsKey = some value := by
    rw [List.lookup_cons, List.lookup_cons]
    rfl
  have hnew : ⟨"Robot.kt"⟩ ∈ roboticsTable.introducedFiles := List.mem_mergeSort.mpr (by decide)
  refine ⟨value, hread, hmap _ hlookup, ?_⟩
  exact (hwaits _ (hmap _ hlookup) roboticsTable ⟨"Robot.kt"⟩ robotArm hnew (by decide)
    ⟨⟨"org.lab.ContributesArm"⟩, by decide, by decide⟩ {}).2.1

end Sample

end ScopeMerge
