import ScopeMerge.Proofs.Bindings

/-!
# Which parameter an argument is for

The arguments of a usage are written in a row, some under the name of a parameter and some
without a name. A usage is *in place* when the row goes along the parameters of the annotation
class: the argument at each position has no name, or has the name of the parameter that is
declared at that position. What every argument is for is then plain to see.

The table does not count positions in the row. It counts the unnamed arguments alone, so a name
in front of an unnamed argument shifts what comes after it:

* a named argument is always found, by its name;
* an unnamed one is found when everything in front of it is unnamed as well
  (`argument?_of_unnamed`);
* otherwise its parameter gets the value of an unnamed argument further to the right, or none
  (`exists_later_of_argument?`).

So it is the order of named and unnamed arguments that decides. With the unnamed ones first,
every usage is read as it was written, in place or not: this is `argument?_eq_some_iff`. What is
read in any other order is what the usage `Shows`.
-/

namespace ScopeMerge

open Vocabulary

/-- A built-in annotation class has the parameters it is declared with, in every table. -/
theorem SymbolTable.SeesBuiltins.parametersOf_eq {t : SymbolTable} (h : t.SeesBuiltins)
    {name : Name} {parameters : List AnnotationParameter}
    (hparameters : (initial.find? name).map (·.parameters) = some parameters) :
    t.parametersOf name = parameters := by
  obtain ⟨found, hfound, rfl⟩ := Option.map_eq_some_iff.mp hparameters
  rw [parametersOf, h.find?_eq hfound]
  rfl

namespace AnnotationUsage

/-! ## How a usage is written -/

/-- What the arguments of a usage are called, in order. -/
def labels (usage : AnnotationUsage) : List (Option String) :=
  usage.arguments.map (·.name)

/-- Every argument is unnamed or has the name of the parameter at its position. -/
def InPlace (parameters : List AnnotationParameter) (usage : AnnotationUsage) : Prop :=
  ∀ (k : Nat) label, usage.labels[k]? = some label →
    ∃ parameter, parameters[k]? = some parameter ∧ (label = none ∨ label = some parameter.name)

/-- No argument without a name comes after one with a name. -/
def UnnamedFirst (usage : AnnotationUsage) : Prop :=
  usage.labels.Pairwise fun earlier later => later = none → earlier = none

/-- The table gives every parameter the value of the argument in its place. -/
def ReadInPlace (t : SymbolTable) (usage : AnnotationUsage) : Prop :=
  ∀ (k : Nat) argument parameter, usage.arguments[k]? = some argument →
    (t.parametersOf usage.type)[k]? = some parameter →
      t.argument? usage parameter.name = some argument.value

/-- A usage gives a parameter a value: under its name, or without a name in its place. -/
def Assigns (parameters : List AnnotationParameter) (usage : AnnotationUsage)
    (parameter : String) (value : AnnotationValue) : Prop :=
  ∃ (k : Nat) (argument : Argument), usage.arguments[k]? = some argument ∧ argument.value = value ∧
    (argument.name = some parameter ∨
      argument.name = none ∧ (parameters.map (·.name))[k]? = some parameter)

/-- What a usage shows for a parameter to a reader who counts the unnamed arguments alone: the first
argument with its name or, if none has its name, the one at its position among the unnamed. -/
def Shows (parameters : List AnnotationParameter) (usage : AnnotationUsage)
    (parameter : String) (value : AnnotationValue) : Prop :=
  ∃ before argument after, usage.arguments = before ++ argument :: after ∧
    argument.value = value ∧
    (argument.name = some parameter ∧ (∀ earlier ∈ before, earlier.name ≠ some parameter) ∨
      argument.name = none ∧ (∀ other ∈ usage.arguments, other.name ≠ some parameter) ∧
        (parameters.map (·.name))[(before.filter (·.name.isNone)).length]? = some parameter)

/-- The parameter that each argument is for, if there is one. -/
def targets (parameters : List AnnotationParameter) (usage : AnnotationUsage) :
    List (Option String) :=
  usage.arguments.mapIdx fun k argument => argument.name.or (parameters.map (·.name))[k]?

/-- No parameter is given twice. -/
def GivenOnce (parameters : List AnnotationParameter) (usage : AnnotationUsage) : Prop :=
  (usage.targets parameters).Pairwise fun earlier later => earlier = later → earlier = none

variable {t : SymbolTable} {usage : AnnotationUsage} {parameters : List AnnotationParameter}
  {parameter : AnnotationParameter} {argument : Argument} {value : AnnotationValue} {k : Nat}

theorem getElem?_labels (h : usage.arguments[k]? = some argument) :
    usage.labels[k]? = some argument.name := by
  rw [labels, List.getElem?_map, h]
  rfl

/-- In front of an unnamed argument there are only unnamed ones, if those come first. -/
theorem UnnamedFirst.unnamed_take (h : usage.UnnamedFirst)
    (hk : usage.arguments[k]? = some argument) (hname : argument.name = none) :
    ∀ earlier ∈ usage.arguments.take k, earlier.name = none := by
  intro earlier hearlier
  obtain ⟨i, hi⟩ := List.mem_iff_getElem?.mp hearlier
  rw [List.getElem?_take] at hi
  split at hi
  · next hlt =>
    obtain ⟨hin, hlabel⟩ := List.getElem?_eq_some_iff.mp (getElem?_labels hi)
    obtain ⟨hkn, hlater⟩ := List.getElem?_eq_some_iff.mp (getElem?_labels hk)
    have hpair := List.pairwise_iff_getElem.mp h i k hin hkn hlt
    rw [hlabel, hlater] at hpair
    exact hpair hname
  · exact nomatch hi

theorem Assigns.exists_target {name : String} (h : usage.Assigns parameters name value) :
    ∃ (k : Nat) (argument : Argument), usage.arguments[k]? = some argument ∧
      argument.value = value ∧ (usage.targets parameters)[k]? = some (some name) := by
  obtain ⟨k, argument, hk, hvalue, htarget⟩ := h
  refine ⟨k, argument, hk, hvalue, ?_⟩
  rw [targets, List.getElem?_mapIdx, hk, Option.map_some]
  rcases htarget with hname | ⟨hname, hparameter⟩
  · rw [hname]
    rfl
  · rw [hname, hparameter]
    rfl

/-- What is given once has one value. -/
theorem Assigns.unique {name : String} {value' : AnnotationValue}
    (h : usage.Assigns parameters name value) (h' : usage.Assigns parameters name value')
    (honce : usage.GivenOnce parameters) : value = value' := by
  obtain ⟨i, first, hi, rfl, htarget⟩ := h.exists_target
  obtain ⟨j, second, hj, rfl, htarget'⟩ := h'.exists_target
  obtain ⟨hilt, hfirst⟩ := List.getElem?_eq_some_iff.mp htarget
  obtain ⟨hjlt, hsecond⟩ := List.getElem?_eq_some_iff.mp htarget'
  have hpair := List.pairwise_iff_getElem.mp honce
  rcases Nat.lt_trichotomy i j with hlt | rfl | hlt
  · have hnone := hpair i j hilt hjlt hlt (hfirst.trans hsecond.symm)
    exact nomatch hfirst.symm.trans hnone
  · exact congrArg Argument.value (Option.some.inj (hi.symm.trans hj))
  · have hnone := hpair j i hjlt hilt hlt (hsecond.trans hfirst.symm)
    exact nomatch hsecond.symm.trans hnone

/-! ## The unnamed arguments -/

/-- What stands at a position among the unnamed arguments has so many unnamed ones in front. -/
theorem positional?_eq_some_iff :
    usage.positional? k = some value ↔
      ∃ before argument after, usage.arguments = before ++ argument :: after ∧
        argument.value = value ∧ argument.name = none ∧
        (before.filter (·.name.isNone)).length = k := by
  unfold positional? positionals
  generalize usage.arguments = arguments
  refine ⟨fun h => ?_, fun h => ?_⟩
  · induction arguments generalizing k with
    | nil => exact nomatch h
    | cons first rest ih =>
        by_cases hfirst : first.name = none
        · rw [List.filter_cons_of_pos (by simp [hfirst])] at h
          cases k with
          | zero => exact ⟨[], first, rest, rfl, Option.some.inj h, hfirst, rfl⟩
          | succ k =>
              obtain ⟨before, argument, after, rfl, hvalue, hname, rfl⟩ := ih h
              exact ⟨first :: before, argument, after, rfl, hvalue, hname, by simp [hfirst]⟩
        · -- the named argument takes up a position in the row, but none among the unnamed
          rw [List.filter_cons_of_neg (by simpa using hfirst)] at h
          obtain ⟨before, argument, after, rfl, hvalue, hname, rfl⟩ := ih h
          exact ⟨first :: before, argument, after, rfl, hvalue, hname, by simp [hfirst]⟩
  · obtain ⟨before, argument, after, rfl, rfl, hname, rfl⟩ := h
    rw [List.getElem?_map, List.filter_append, List.filter_cons_of_pos (by simp [hname]),
      List.getElem?_append_right (Nat.le_refl _), Nat.sub_self]
    rfl

/-- An unnamed argument behind unnamed ones keeps its position when the named ones are left out. -/
theorem positionals_getElem? (hk : usage.arguments[k]? = some argument)
    (hname : argument.name = none)
    (hall : ∀ earlier ∈ usage.arguments.take k, earlier.name = none) :
    usage.positionals[k]? = some argument.value := by
  obtain ⟨hlt, hargument⟩ := List.getElem?_eq_some_iff.mp hk
  have hsplit : usage.arguments =
      usage.arguments.take k ++ argument :: usage.arguments.drop (k + 1) := by
    rw [← hargument, ← List.drop_eq_getElem_cons hlt, List.take_append_drop]
  have hcount : ((usage.arguments.take k).filter (·.name.isNone)).length = k := by
    rw [List.filter_eq_self.mpr (by simpa using hall), List.length_take,
      Nat.min_eq_left (Nat.le_of_lt hlt)]
  exact positional?_eq_some_iff.mpr ⟨_, argument, _, hsplit, rfl, hname, hcount⟩

/-- What stands at a position among the unnamed arguments stands at that position in the row, with
no name in front of it, or further to the right. -/
theorem exists_of_positionals (h : usage.positionals[k]? = some value) :
    ∃ (j : Nat) (argument : Argument), k ≤ j ∧ usage.arguments[j]? = some argument ∧
      argument.name = none ∧ argument.value = value ∧
      (k = j → ∀ earlier ∈ usage.arguments.take k, earlier.name = none) := by
  obtain ⟨before, argument, after, hsplit, hvalue, hname, rfl⟩ := positional?_eq_some_iff.mp h
  refine ⟨before.length, argument, List.length_filter_le _ _, by simp [hsplit], hname, hvalue,
    fun heq => ?_⟩
  -- if nothing is left out then everything in front is unnamed
  have hall := List.length_filter_eq_length_iff.mp heq
  rw [heq, hsplit, List.take_left]
  simpa using hall

theorem UnnamedFirst.exists_of_positionals (h : usage.UnnamedFirst)
    (hvalue : usage.positionals[k]? = some value) :
    ∃ argument, usage.arguments[k]? = some argument ∧ argument.name = none ∧
      argument.value = value := by
  obtain ⟨before, argument, after, hsplit, hgiven, hname, rfl⟩ :=
    positional?_eq_some_iff.mp hvalue
  have hk : usage.arguments[before.length]? = some argument := by simp [hsplit]
  have hall : ∀ earlier ∈ before, earlier.name = none := by
    simpa [hsplit] using h.unnamed_take hk hname
  rw [List.filter_eq_self.mpr (by simpa using hall)]
  exact ⟨argument, hk, hname, hgiven⟩

/-! ## The named arguments -/

theorem named?_eq_some_iff {name : String} :
    usage.named? name = some value ↔
      ∃ before argument after, usage.arguments = before ++ argument :: after ∧
        argument.value = value ∧ argument.name = some name ∧
        ∀ earlier ∈ before, earlier.name ≠ some name := by
  rw [named?, Option.map_eq_some_iff]
  refine ⟨fun h => ?_, fun h => ?_⟩
  · obtain ⟨argument, hfound, hvalue⟩ := h
    obtain ⟨hname, before, after, hsplit, hfirst⟩ := List.find?_eq_some_iff_append.mp hfound
    exact ⟨before, argument, after, hsplit, hvalue, by simpa using hname, by simpa using hfirst⟩
  · obtain ⟨before, argument, after, hsplit, hvalue, hname, hfirst⟩ := h
    refine ⟨argument, List.find?_eq_some_iff_append.mpr ?_, hvalue⟩
    exact ⟨by simpa using hname, before, after, hsplit, by simpa using hfirst⟩

theorem exists_of_named? {name : String} (h : usage.named? name = some value) :
    ∃ (k : Nat) (argument : Argument), usage.arguments[k]? = some argument ∧
      argument.name = some name ∧ argument.value = value := by
  obtain ⟨before, argument, after, hsplit, hvalue, hname, _⟩ := named?_eq_some_iff.mp h
  exact ⟨before.length, argument, by simp [hsplit], hname, hvalue⟩

theorem named?_eq_none_iff {name : String} :
    usage.named? name = none ↔ ∀ other ∈ usage.arguments, other.name ≠ some name := by
  simp [named?]

theorem named?_isSome_of_name {name : String} (hk : usage.arguments[k]? = some argument)
    (hname : argument.name = some name) : (usage.named? name).isSome = true := by
  rw [named?, Option.isSome_map, List.find?_isSome]
  exact ⟨argument, List.mem_of_getElem? hk, by simp [hname]⟩

/-! ## What the table reads -/

theorem findIdx?_of_distinct (hdistinct : (parameters.map (·.name)).Nodup)
    (hp : parameters[k]? = some parameter) :
    parameters.findIdx? (·.name = parameter.name) = some k := by
  obtain ⟨hk, rfl⟩ := List.getElem?_eq_some_iff.mp hp
  rw [List.findIdx?_eq_some_iff_getElem]
  refine ⟨hk, by simp, fun j hj hsame => ?_⟩
  have hnames : (parameters.map (·.name))[j]? = (parameters.map (·.name))[k]? := by
    simp [hk, Nat.lt_trans hj hk, of_decide_eq_true hsame]
  have heq := (List.getElem?_inj (by simpa using Nat.lt_trans hj hk) hdistinct).mp hnames
  exact absurd heq (Nat.ne_of_lt hj)

/-- The position of a name among distinct names is the only place where it stands. -/
theorem findIdx?_eq_some_iff_of_distinct (hdistinct : (parameters.map (·.name)).Nodup)
    {name : String} : parameters.findIdx? (·.name = name) = some k ↔
      (parameters.map (·.name))[k]? = some name := by
  refine ⟨fun h => ?_, fun h => ?_⟩
  · obtain ⟨hlt, hsame, _⟩ := List.findIdx?_eq_some_iff_getElem.mp h
    simp [hlt, of_decide_eq_true hsame]
  · rw [List.getElem?_map] at h
    obtain ⟨parameter, hparameter, rfl⟩ := Option.map_eq_some_iff.mp h
    exact findIdx?_of_distinct hdistinct hparameter

/-- **The table reads what a usage shows.** -/
theorem argument?_eq_some_iff_shows (hdistinct : ((t.parametersOf usage.type).map (·.name)).Nodup)
    {name : String} :
    t.argument? usage name = some value ↔ usage.Shows (t.parametersOf usage.type) name value := by
  rw [SymbolTable.argument?, Option.or_eq_some_iff, named?_eq_some_iff, named?_eq_none_iff,
    Option.bind_eq_some_iff]
  simp only [findIdx?_eq_some_iff_of_distinct hdistinct, positional?_eq_some_iff]
  refine ⟨fun h => ?_, fun h => ?_⟩
  · rcases h with ⟨before, argument, after, hsplit, hvalue, hnamed⟩ |
      ⟨hnone, _, hposition, before, argument, after, hsplit, hvalue, hname, rfl⟩
    · exact ⟨before, argument, after, hsplit, hvalue, Or.inl hnamed⟩
    · exact ⟨before, argument, after, hsplit, hvalue, Or.inr ⟨hname, hnone, hposition⟩⟩
  · obtain ⟨before, argument, after, hsplit, hvalue, hnamed | ⟨hname, hnone, hposition⟩⟩ := h
    · exact Or.inl ⟨before, argument, after, hsplit, hvalue, hnamed⟩
    · exact Or.inr ⟨hnone, _, hposition, before, argument, after, hsplit, hvalue, hname, rfl⟩

/-- In place, only the argument at the position of a parameter can have its name. -/
theorem InPlace.position_eq {j : Nat} (h : usage.InPlace parameters)
    (hdistinct : (parameters.map (·.name)).Nodup) (hp : parameters[k]? = some parameter)
    (hj : usage.arguments[j]? = some argument) (hname : argument.name = some parameter.name) :
    j = k := by
  obtain ⟨other, hother, hlabel⟩ := h j _ (getElem?_labels hj)
  have hsame : other.name = parameter.name := by
    rcases hlabel with hlabel | hlabel <;> rw [hname] at hlabel
    · exact nomatch hlabel
    · exact (Option.some.inj hlabel).symm
  have hfound := findIdx?_of_distinct hdistinct hother
  rw [hsame, findIdx?_of_distinct hdistinct hp] at hfound
  exact (Option.some.inj hfound).symm

section

variable (hdistinct : ((t.parametersOf usage.type).map (·.name)).Nodup)
  (hplace : usage.InPlace (t.parametersOf usage.type))
  (hk : usage.arguments[k]? = some argument)
  (hp : (t.parametersOf usage.type)[k]? = some parameter)

include hdistinct hplace hk hp

/-- A named argument is found by its name. -/
theorem argument?_of_named (hname : argument.name ≠ none) :
    t.argument? usage parameter.name = some argument.value := by
  have hown : argument.name = some parameter.name := by
    obtain ⟨other, hother, hlabel⟩ := hplace k _ (getElem?_labels hk)
    obtain rfl := Option.some.inj (hp.symm.trans hother)
    exact hlabel.resolve_left hname
  obtain ⟨value, hvalue⟩ := Option.isSome_iff_exists.mp (named?_isSome_of_name hk hown)
  obtain ⟨j, found, hj, hfound, rfl⟩ := exists_of_named? hvalue
  obtain rfl := hplace.position_eq hdistinct hp hj hfound
  obtain rfl := Option.some.inj (hk.symm.trans hj)
  rw [SymbolTable.argument?, hvalue]
  rfl

/-- For the parameter of an unnamed argument the unnamed arguments are counted. -/
theorem argument?_eq_positionals (hname : argument.name = none) :
    t.argument? usage parameter.name = usage.positionals[k]? := by
  have hnone : usage.named? parameter.name = none := by
    by_contra hsome
    obtain ⟨value, hvalue⟩ := Option.ne_none_iff_exists'.mp hsome
    obtain ⟨j, found, hj, hfound, _⟩ := exists_of_named? hvalue
    obtain rfl := hplace.position_eq hdistinct hp hj hfound
    obtain rfl := Option.some.inj (hk.symm.trans hj)
    exact nomatch hname.symm.trans hfound
  rw [SymbolTable.argument?, hnone, findIdx?_of_distinct hdistinct hp]
  rfl

theorem argument?_of_unnamed (hname : argument.name = none)
    (hall : ∀ earlier ∈ usage.arguments.take k, earlier.name = none) :
    t.argument? usage parameter.name = some argument.value := by
  rw [argument?_eq_positionals hdistinct hplace hk hp hname]
  exact positionals_getElem? hk hname hall

theorem exists_later_of_argument? (hname : argument.name = none)
    (hnamed : ∃ earlier ∈ usage.arguments.take k, earlier.name ≠ none)
    (hread : t.argument? usage parameter.name = some value) :
    ∃ j later, k < j ∧ usage.arguments[j]? = some later ∧ later.name = none ∧
      later.value = value := by
  rw [argument?_eq_positionals hdistinct hplace hk hp hname] at hread
  obtain ⟨j, later, hle, hj, hunnamed, hvalue, hall⟩ := exists_of_positionals hread
  refine ⟨j, later, Nat.lt_of_le_of_ne hle fun heq => ?_, hj, hunnamed, hvalue⟩
  obtain ⟨earlier, hearlier, hne⟩ := hnamed
  exact hne (hall heq earlier hearlier)

end

theorem readInPlace_of_unnamedFirst
    (hdistinct : ((t.parametersOf usage.type).map (·.name)).Nodup)
    (hplace : usage.InPlace (t.parametersOf usage.type)) (h : usage.UnnamedFirst) :
    usage.ReadInPlace t := by
  intro k argument parameter hk hp
  by_cases hname : argument.name = none
  · exact argument?_of_unnamed hdistinct hplace hk hp hname (h.unnamed_take hk hname)
  · exact argument?_of_named hdistinct hplace hk hp hname

/-- The usage with other values: one up to a position in the row, and another one after it. -/
def markedUpTo (usage : AnnotationUsage) (k : Nat) : AnnotationUsage :=
  { usage with
    arguments := usage.arguments.mapIdx fun i argument =>
      { argument with value := .bool (decide (i ≤ k)) } }

theorem labels_markedUpTo (usage : AnnotationUsage) (k : Nat) :
    (usage.markedUpTo k).labels = usage.labels := by
  refine List.ext_getElem? fun i => ?_
  simp only [labels, markedUpTo, List.getElem?_map, List.getElem?_mapIdx, Option.map_map]
  rfl

/-- A usage that is read in place whatever its values has its unnamed arguments first. -/
theorem unnamedFirst_of_readInPlace
    (hdistinct : ((t.parametersOf usage.type).map (·.name)).Nodup)
    (hplace : usage.InPlace (t.parametersOf usage.type))
    (h : ∀ k, (usage.markedUpTo k).ReadInPlace t) : usage.UnnamedFirst := by
  refine List.pairwise_iff_getElem.mpr fun i k hi hk hlt hnone => ?_
  by_contra hnamed
  have hmarked : ∀ {j : Nat} {argument : Argument}, usage.arguments[j]? = some argument →
      (usage.markedUpTo k).arguments[j]? =
        some { argument with value := .bool (decide (j ≤ k)) } := by
    intro j argument hj
    simp [markedUpTo, hj]
  have hplace' : (usage.markedUpTo k).InPlace (t.parametersOf usage.type) := by
    unfold InPlace
    rw [labels_markedUpTo]
    exact hplace
  have hdistinct' : ((t.parametersOf (usage.markedUpTo k).type).map (·.name)).Nodup := hdistinct
  have hlength : usage.labels.length = usage.arguments.length := List.length_map _
  have hargument := List.getElem?_eq_getElem (hlength ▸ hk)
  have hearlier := List.getElem?_eq_getElem (hlength ▸ hi)
  obtain ⟨parameter, hp, _⟩ := hplace k _ (List.getElem?_eq_getElem hk)
  have hread := h k k _ parameter (hmarked hargument) hp
  -- what is read stands further to the right, where the mark is another one
  obtain ⟨j, later, hj, hlater, _, hvalue⟩ := exists_later_of_argument?
    hdistinct' hplace' (hmarked hargument) hp
    (by simpa [labels] using hnone)
    ⟨_, List.mem_iff_getElem?.mpr
      ⟨i, (List.getElem?_take_of_lt hlt).trans (hmarked hearlier)⟩, by simpa [labels] using hnamed⟩
    hread
  obtain ⟨original, horiginal⟩ : ∃ original, usage.arguments[j]? = some original := by
    have hsome : (usage.markedUpTo k).labels[j]? = some later.name := getElem?_labels hlater
    rw [labels_markedUpTo, labels, List.getElem?_map] at hsome
    obtain ⟨original, horiginal, _⟩ := Option.map_eq_some_iff.mp hsome
    exact ⟨original, horiginal⟩
  obtain rfl := Option.some.inj ((hmarked horiginal).symm.trans hlater)
  simp [Nat.not_le.mpr hj] at hvalue

/-- **With the unnamed arguments first a usage is read as it is written.** -/
theorem argument?_eq_some_iff (hdistinct : ((t.parametersOf usage.type).map (·.name)).Nodup)
    (hfirst : usage.UnnamedFirst) (honce : usage.GivenOnce (t.parametersOf usage.type))
    {name : String} :
    t.argument? usage name = some value ↔ usage.Assigns (t.parametersOf usage.type) name value := by
  have hread : ∀ value, t.argument? usage name = some value →
      usage.Assigns (t.parametersOf usage.type) name value := by
    intro value h
    rcases Option.or_eq_some_iff.mp h with hnamed | ⟨_, hbind⟩
    · obtain ⟨k, argument, hk, hname, hvalue⟩ := exists_of_named? hnamed
      exact ⟨k, argument, hk, hvalue, Or.inl hname⟩
    · obtain ⟨k, hfound, hpositional⟩ := Option.bind_eq_some_iff.mp hbind
      obtain ⟨argument, hk, hname, hvalue⟩ := hfirst.exists_of_positionals hpositional
      have hposition := (findIdx?_eq_some_iff_of_distinct hdistinct).mp hfound
      exact ⟨k, argument, hk, hvalue, Or.inr ⟨hname, hposition⟩⟩
  refine ⟨hread value, fun h => ?_⟩
  -- something is read, and nothing else is assigned
  obtain ⟨other, hother⟩ : ∃ other, t.argument? usage name = some other := by
    obtain ⟨k, argument, hk, _, hname | ⟨hname, hp⟩⟩ := h
    · obtain ⟨other, hother⟩ := Option.isSome_iff_exists.mp (named?_isSome_of_name hk hname)
      exact ⟨other, by rw [SymbolTable.argument?, hother]; rfl⟩
    · cases hnamed : usage.named? name with
      | some other => exact ⟨other, by rw [SymbolTable.argument?, hnamed]; rfl⟩
      | none =>
          refine ⟨argument.value, ?_⟩
          rw [SymbolTable.argument?, hnamed,
            (findIdx?_eq_some_iff_of_distinct hdistinct).mpr hp]
          exact positionals_getElem? hk hname (hfirst.unnamed_take hk hname)
  rw [hother, h.unique (hread other hother) honce]

/-- **Arguments are read in their places exactly when the unnamed ones come first.** In a usage
that goes along the parameters of its class a named argument is always read in its place, and an
unnamed one is if there is no name in front of it. If there is one, its parameter gets a value from
further to the right or none. So a row of labels is read in place for all values exactly when no
unnamed argument comes after a named one. -/
theorem arguments_read_in_place_iff (t : SymbolTable) (usage : AnnotationUsage)
    (hdistinct : ((t.parametersOf usage.type).map (·.name)).Nodup)
    (hplace : usage.InPlace (t.parametersOf usage.type)) :
    (∀ (k : Nat) argument parameter, usage.arguments[k]? = some argument →
      (t.parametersOf usage.type)[k]? = some parameter →
        (argument.name ≠ none ∨ (∀ earlier ∈ usage.arguments.take k, earlier.name = none) →
          t.argument? usage parameter.name = some argument.value) ∧
        (argument.name = none → (∃ earlier ∈ usage.arguments.take k, earlier.name ≠ none) →
          ∀ value, t.argument? usage parameter.name = some value →
            ∃ j later, k < j ∧ usage.arguments[j]? = some later ∧ later.name = none ∧
              later.value = value)) ∧
    ((∀ other : AnnotationUsage, other.type = usage.type → other.labels = usage.labels →
        other.ReadInPlace t) ↔
      usage.UnnamedFirst) := by
  refine ⟨fun k argument parameter hk hp => ⟨fun h => ?_, fun hname hnamed value => ?_⟩, ?_⟩
  · by_cases hname : argument.name = none
    · exact argument?_of_unnamed hdistinct hplace hk hp hname (h.resolve_left (not_not.mpr hname))
    · exact argument?_of_named hdistinct hplace hk hp hname
  · exact exists_later_of_argument? hdistinct hplace hk hp hname hnamed
  · refine ⟨fun h => ?_, fun h other htype hlabels => ?_⟩
    · exact unnamedFirst_of_readInPlace hdistinct hplace fun k =>
        h _ rfl (labels_markedUpTo usage k)
    · refine readInPlace_of_unnamedFirst ?_ ?_ ?_
      · rwa [htype]
      · unfold InPlace
        rwa [htype, hlabels]
      · unfold UnnamedFirst
        rwa [hlabels]

end AnnotationUsage

namespace Sample

/-- A usage with the unnamed arguments first. -/
def tickerUsage : AnnotationUsage :=
  { type := contributesBinding
    arguments :=
      [{ value := .type appScope }, { value := .type ⟨"com.app.Ticker"⟩ },
        { name := some multibindingParameter, value := .bool true }] }

/-- A usage with a name in front of the unnamed bound type. -/
def shiftedUsage : AnnotationUsage :=
  { type := contributesBinding
    arguments :=
      [{ name := some scopeParameter, value := .type appScope },
        { value := .type ⟨"com.app.Ticker"⟩ }] }

/-- A clock with the bound type in its place, behind the named scope. -/
def shiftedClock : Declaration :=
  { wallClock with annotations := [shiftedUsage] }

end Sample

namespace AnnotationUsage

theorem ticker_usage_reads_in_place :
    Sample.tickerUsage.InPlace (SymbolTable.initial.parametersOf contributesBinding) ∧
    Sample.tickerUsage.UnnamedFirst ∧
    Sample.tickerUsage.ReadInPlace SymbolTable.initial := by
  have hplace :
      Sample.tickerUsage.InPlace (SymbolTable.initial.parametersOf contributesBinding) := by
    intro k label hlabel
    rcases k with _ | _ | _ | k <;> cases hlabel
    · exact ⟨_, rfl, Or.inl rfl⟩
    · exact ⟨_, rfl, Or.inl rfl⟩
    · exact ⟨_, rfl, Or.inr rfl⟩
  have hfirst : Sample.tickerUsage.UnnamedFirst := by
    unfold UnnamedFirst
    decide
  obtain ⟨_, hiff⟩ :=
    arguments_read_in_place_iff SymbolTable.initial Sample.tickerUsage (by decide) hplace
  exact ⟨hplace, hfirst, hiff.mpr hfirst _ rfl rfl⟩

/-- Behind the named scope the bound type is not read, and the clock is bound to its only telling
supertype instead. -/
theorem named_scope_hides_bound_type :
    Sample.shiftedUsage.InPlace (SymbolTable.initial.parametersOf contributesBinding) ∧
    ((SymbolTable.initial.parametersOf contributesBinding).map (·.name)).Nodup ∧
    ¬ Sample.shiftedUsage.ReadInPlace SymbolTable.initial ∧
    SymbolTable.initial.argument? Sample.shiftedUsage boundTypeParameter = none ∧
    Contribution.bindingLookups SymbolTable.initial contributesBinding Sample.shiftedClock =
      .ok [Sample.wallClockLookup "com.app.Clock" false] := by
  have hplace :
      Sample.shiftedUsage.InPlace (SymbolTable.initial.parametersOf contributesBinding) := by
    intro k label hlabel
    rcases k with _ | _ | k <;> cases hlabel
    · exact ⟨_, rfl, Or.inr rfl⟩
    · exact ⟨_, rfl, Or.inl rfl⟩
  have hnone : SymbolTable.initial.argument? Sample.shiftedUsage boundTypeParameter = none := by
    decide
  refine ⟨hplace, by decide, fun hread => ?_, hnone, by decide⟩
  have hvalue := hread 1 _ _ rfl rfl
  exact Option.some_ne_none _ (hvalue.symm.trans hnone)

end AnnotationUsage

end ScopeMerge
