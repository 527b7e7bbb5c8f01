import ScopeMerge.Proofs.Naming

/-!
# The names of nested declarations

A nested declaration is named after the one around it: that name, a dot, and a
simple name of its own. Generated names are made from such a name by taking it apart
again, so it matters that nothing is lost on the way down.

* `name_descend`: however deep the nesting, the name is the package and then the
  simple names of all levels, joined by dots. This is the one induction, and one
  level of it is `child_inPackage`.
* `relativeName_of_name`, `joinedSimpleName_of_relativeName`: from a name of that form
  both are read back as they were written. The package is taken off as a whole, so it
  does no harm if the simple names start like it.

`Decomposes` collects what is read off a declaration, and the last theorem says it of
every level.
-/

namespace ScopeMerge

/-! ## Names below a package -/

namespace Name

/-- A member of something in a package is in the package as well. -/
theorem child_inPackage (package path simple : String) :
    (inPackage package path).child simple = inPackage package (path ++ "." ++ simple) := by
  unfold inPackage child
  split
  · rfl
  · exact congrArg Name.mk (by simp only [String.append_assoc])

theorem simpleName_child (name : Name) {simple : String} (h : '.' ∉ simple.toList) :
    (name.child simple).simpleName = simple := by
  have hchars : (name.text ++ "." ++ simple).toList = name.text.toList ++ '.' :: simple.toList := by
    simp
  unfold child simpleName Text.pieces
  dsimp only
  rw [hchars, Text.splitChars_append _ h]
  simp

end Name

/-! ## One level after the other -/

namespace Declaration

variable {d : Declaration} {simples : List String}

/-- The declaration that is reached from an outer one by nesting, level by level from the outside
to the inside. -/
def descend (outer : Declaration) (levels : List (DeclarationKind × String)) : Declaration :=
  levels.foldl (fun around level => nested level.1 around level.2) outer

theorem package_descend (outer : Declaration) (levels : List (DeclarationKind × String)) :
    (outer.descend levels).package = outer.package := by
  unfold descend
  induction levels generalizing outer with
  | nil => rfl
  | cons level inner ih => exact ih (nested level.1 outer level.2)

/-- The innermost level is nested in what is reached by the others. -/
theorem descend_concat (outer : Declaration) (levels : List (DeclarationKind × String))
    (level : DeclarationKind × String) :
    outer.descend (levels ++ [level]) = nested level.1 (outer.descend levels) level.2 := by
  unfold descend
  rw [List.foldl_append]
  rfl

/-- **A name is the package and the simple names of all levels in a row.** -/
theorem name_descend {path : String} (levels : List (DeclarationKind × String))
    (h : d.name = Name.inPackage d.package path) :
    (d.descend levels).name =
      Name.inPackage d.package (String.intercalate "." (path :: levels.map (·.2))) := by
  induction levels generalizing d path with
  | nil =>
      rw [List.map_nil, String.intercalate_singleton]
      exact h
  | cons level inner ih =>
      have hnext : (nested level.1 d level.2).name =
          Name.inPackage d.package (path ++ "." ++ level.2) := by
        rw [← Name.child_inPackage, ← h]
        rfl
      calc (d.descend (level :: inner)).name
          = ((nested level.1 d level.2).descend inner).name := rfl
        _ = Name.inPackage d.package
              (String.intercalate "." ((path ++ "." ++ level.2) :: inner.map (·.2))) := ih hnext
        _ = _ := by
            rw [List.map_cons, String.intercalate_cons_cons, String.intercalate_cons_append]

/-! ## Reading the names back -/

/-- What stands behind the package is the relative name. -/
theorem relativeName_of_name {path : String} (h : d.name = Name.inPackage d.package path) :
    d.relativeName = path := by
  unfold relativeName
  dsimp only
  by_cases hp : d.package = ""
  · rw [if_neg (fun hboth => hboth.1 hp), h, hp]
    rfl
  · have hchars : d.name.text.toList = (d.package ++ ".").toList ++ path.toList := by
      rw [h, Name.toList_inPackage hp]
      simp
    rw [hchars, if_pos ⟨hp, List.isPrefixOf_iff_prefix.mpr (List.prefix_append _ _)⟩,
      List.drop_left, String.ofList_toList]

/-- Without the dots the simple names follow each other directly. -/
theorem filter_intercalate (hdots : ∀ simple ∈ simples, '.' ∉ simple.toList) :
    (String.intercalate "." simples).toList.filter (· ≠ '.') = (String.join simples).toList := by
  induction simples with
  | nil => rfl
  | cons simple rest ih =>
      have hkept : simple.toList.filter (· ≠ '.') = simple.toList :=
        List.filter_eq_self.mpr fun c hc =>
          decide_eq_true fun h => hdots simple List.mem_cons_self (h ▸ hc)
      have hrest := ih fun s hs => hdots s (List.mem_cons_of_mem _ hs)
      cases rest with
      | nil => simpa using hkept
      | cons next more =>
          rw [String.intercalate_cons_cons, String.toList_append, String.toList_append,
            List.filter_append, List.filter_append, hkept, hrest]
          simp

theorem joinedSimpleName_of_relativeName (hdots : ∀ simple ∈ simples, '.' ∉ simple.toList)
    (h : d.relativeName = String.intercalate "." simples) :
    d.joinedSimpleName = String.join simples := by
  unfold joinedSimpleName
  rw [h, filter_intercalate hdots, String.ofList_toList]

/-- What is read off the name of a declaration in a package, given the simple names of the
declarations around it and its own. -/
structure Decomposes (package : String) (simples : List String) (d : Declaration) : Prop where
  relativeName : d.relativeName = String.intercalate "." simples
  joinedSimpleName : d.joinedSimpleName = String.join simples
  /-- The simple name is the one of the innermost level. -/
  simpleName : simples.getLast? = some d.name.simpleName
  /-- The aggregate is not nested: it is a member of the package itself. -/
  aggregateName : d.aggregateName = Name.inPackage package (String.join simples ++ "Merged")
  aggregateSimpleName : d.aggregateName.simpleName = String.join simples ++ "Merged"

theorem simpleName_descend (kind : DeclarationKind) (package first : String)
    (levels : List (DeclarationKind × String))
    (hdots : ∀ simple ∈ first :: levels.map (·.2), '.' ∉ simple.toList) :
    (first :: levels.map (·.2)).getLast? =
      some ((topLevel kind package first).descend levels).name.simpleName := by
  cases levels using List.reverseRecOn with
  | nil => exact congrArg some (Name.simpleName_inPackage package (hdots first (by simp))).symm
  | append_singleton outer level =>
      have hlevel : '.' ∉ level.2.toList := hdots level.2 (by simp)
      rw [descend_concat]
      show _ = some (Name.simpleName (Name.child _ level.2))
      rw [Name.simpleName_child _ hlevel, List.map_append, ← List.cons_append]
      exact List.getLast?_concat

/-- **The name of a nested declaration can be taken apart again.** Whatever the package, and
however deep the nesting, a declaration whose simple names have no dots in them has these simple
names joined by dots as its relative name and by nothing as its joined name, and the innermost one
as its simple name. Its aggregate is named after the joined name, directly in the package. At every
level the parent is what the level around it is called, and at the outermost there is none. -/
theorem nested_names_decompose (kind : DeclarationKind) (package first : String)
    (levels : List (DeclarationKind × String))
    (hdots : ∀ simple ∈ first :: levels.map (·.2), '.' ∉ simple.toList) :
    Decomposes package (first :: levels.map (·.2)) ((topLevel kind package first).descend levels) ∧
      (topLevel kind package first).parent = none ∧
      ∀ outer level inner, levels = outer ++ level :: inner →
        ((topLevel kind package first).descend (outer ++ [level])).parent =
          some ((topLevel kind package first).descend outer).name := by
  have hpackage := package_descend (topLevel kind package first) levels
  have hrelative := relativeName_of_name
    ((name_descend levels rfl).trans (congrArg (Name.inPackage · _) hpackage.symm))
  have hjoined := joinedSimpleName_of_relativeName hdots hrelative
  have haggregate : ((topLevel kind package first).descend levels).aggregateName =
      Name.inPackage package (String.join (first :: levels.map (·.2)) ++ "Merged") := by
    unfold aggregateName
    rw [hpackage, hjoined]
    rfl
  refine ⟨⟨hrelative, hjoined, simpleName_descend kind package first levels hdots, haggregate, ?_⟩,
    rfl, ?_⟩
  · rw [haggregate]
    refine Name.simpleName_inPackage package ?_
    rw [← hjoined]
    unfold joinedSimpleName
    simp
  · intro outer level inner _
    rw [descend_concat]
    rfl

/-- Simple names that start like the package, three levels deep. -/
theorem namesake_levels_decompose :
    (∀ simple ∈ ["com", "app", "com"], '.' ∉ simple.toList) ∧
      Decomposes "com.app" ["com", "app", "com"]
        ((topLevel .object "com.app" "com").descend [(.interface, "app"), (.classType, "com")]) ∧
      ((topLevel .object "com.app" "com").descend
        [(.interface, "app"), (.classType, "com")]).parent = some ⟨"com.app.com.app"⟩ := by
  have hdots : ∀ simple ∈ ["com", "app", "com"], '.' ∉ simple.toList := by decide
  obtain ⟨hdecomposes, _, hparents⟩ := nested_names_decompose .object "com.app" "com"
    [(.interface, "app"), (.classType, "com")] hdots
  exact ⟨hdots, hdecomposes, hparents [(.interface, "app")] (.classType, "com") [] rfl⟩

end Declaration

end ScopeMerge
