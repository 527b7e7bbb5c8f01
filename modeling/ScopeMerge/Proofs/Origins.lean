import ScopeMerge.Proofs.Agreement
import ScopeMerge.Proofs.History
import ScopeMerge.Proofs.ScopeRule
import Mathlib.Data.List.Chain
import Mathlib.Data.List.Perm.Subperm
import Mathlib.Logic.Relation

/-!
# Origins and what a merge selects

Links from lookups to their origins form a graph, and nothing keeps it from having
cycles. `originChain` walks it with a list of the names it has seen. Every
declaration has at most one origin, so a walk that stops at the first name it has
seen before has been everywhere that can be reached: `mem_originChain_iff`.

What a merge selects is then a matter of what a lookup reaches (`Belongs`), with no
walk in it, and how exclusions add up can be read off.
-/

namespace ScopeMerge

namespace Merge

/-! ## Reaching a declaration -/

/-- A lookup names a visible declaration as its origin. -/
def Links (t : SymbolTable) (d origin : Declaration) : Prop :=
  d.isLookup = true ∧ ∃ name, d.origin = some name ∧ t.find? name = some origin

/-- A declaration is found by following origins. -/
def Reaches (t : SymbolTable) : Declaration → Declaration → Prop :=
  Relation.ReflTransGen (Links t)

/-- A list of declarations is the way from a declaration along its origins. -/
structure FollowsOrigins (t : SymbolTable) (start : Declaration) (chain : List Declaration) :
    Prop where
  head : chain.head? = some start
  /-- Each one after the first is the origin of the one before it. -/
  linked : chain.IsChain (Links t)
  nodup : (chain.map (·.name)).Nodup
  mem_iff : ∀ d, d ∈ chain ↔ Reaches t start d
  /-- No walk takes longer than there are declarations to be found. -/
  length_le : chain.length ≤ t.visible.length

variable {t : SymbolTable} {visited : List Name} {start d e origin : Declaration}

theorem origin?_eq_some_iff : origin? t d = some origin ↔ Links t d origin := by
  unfold origin? Links
  split
  · next h => rw [Option.bind_eq_some_iff]; exact (and_iff_right h).symm
  · next h => exact ⟨nofun, fun hlinks => absurd hlinks.1 h⟩

/-- An origin is found by its own name. -/
theorem Links.find?_eq (h : Links t d origin) : t.find? origin.name = some origin := by
  obtain ⟨_, name, _, hfind⟩ := h
  rwa [(SymbolTable.find?_eq_some hfind).2]

theorem Links.unique (h : Links t d e) (h' : Links t d origin) : e = origin :=
  Option.some.inj ((origin?_eq_some_iff.mpr h).symm.trans (origin?_eq_some_iff.mpr h'))

theorem Reaches.find?_eq (h : Reaches t start d) (hstart : t.find? start.name = some start) :
    t.find? d.name = some d := by
  cases h with
  | refl => exact hstart
  | tail _ hlinks => exact hlinks.find?_eq

/-! ## The walk -/

/-- The rest of a walk from a declaration, when some names have been seen. -/
inductive Walk (t : SymbolTable) : List Name → Declaration → List Declaration → Prop
  /-- There is no origin, or its name has been seen. -/
  | ends {visited : List Name} {d : Declaration}
      (h : ∀ origin, Links t d origin → origin.name ∈ visited) : Walk t visited d [d]
  /-- The walk goes on from an origin with a new name. -/
  | goes {visited : List Name} {d origin : Declaration} {rest : List Declaration}
      (hlinks : Links t d origin) (hnew : origin.name ∉ visited)
      (hrest : Walk t (origin.name :: visited) origin rest) : Walk t visited d (d :: rest)

theorem walk_chainFrom (visited : List Name) (d : Declaration) :
    Walk t visited d (chainFrom t visited d) := by
  induction visited, d using chainFrom.induct t with
  | case1 visited d hnone =>
      rw [chainFrom_eq, hnone]
      refine .ends fun origin hlinks => ?_
      rw [origin?_eq_some_iff.mpr hlinks] at hnone
      contradiction
  | case2 visited d origin horigin hseen =>
      rw [chainFrom_eq, horigin]
      dsimp only
      rw [if_pos hseen]
      refine .ends fun other hlinks => ?_
      rwa [hlinks.unique (origin?_eq_some_iff.mp horigin)]
  | case3 visited d origin horigin hnew ih =>
      rw [chainFrom_eq, horigin]
      dsimp only
      rw [if_neg hnew]
      exact .goes (origin?_eq_some_iff.mp horigin) hnew ih

namespace Walk

variable {chain : List Declaration}

theorem head?_eq (h : Walk t visited d chain) : chain.head? = some d := by
  cases h <;> rfl

theorem isChain (h : Walk t visited d chain) : chain.IsChain (Links t) := by
  induction h with
  | ends h => exact .singleton _
  | goes hlinks hnew hrest ih =>
      refine List.isChain_cons.mpr ⟨fun next hnext => ?_, ih⟩
      rwa [← Option.some.inj (hrest.head?_eq.symm.trans hnext)]

theorem reaches (h : Walk t visited d chain) (he : e ∈ chain) : Reaches t d e := by
  induction h with
  | ends h => exact List.mem_singleton.mp he ▸ .refl
  | goes hlinks hnew hrest ih =>
      rcases List.mem_cons.mp he with rfl | he
      · exact .refl
      · exact .head hlinks (ih he)

/-- A walk comes upon no name that it has seen, but for the one it starts at. -/
theorem eq_or_new (h : Walk t visited d chain) (he : e ∈ chain) : e = d ∨ e.name ∉ visited := by
  induction h with
  | ends h => exact Or.inl (List.mem_singleton.mp he)
  | goes hlinks hnew hrest ih =>
      refine (List.mem_cons.mp he).imp_right fun he => ?_
      rcases ih he with rfl | hunseen
      · exact hnew
      · exact fun hseen => hunseen (List.mem_cons_of_mem _ hseen)

theorem nodup_names (h : Walk t visited d chain) (hd : d.name ∈ visited) :
    (chain.map (·.name)).Nodup := by
  induction h with
  | ends h => exact List.nodup_singleton _
  | @goes visited d origin rest hlinks hnew hrest ih =>
      refine List.nodup_cons.mpr ⟨fun hmem => ?_, ih List.mem_cons_self⟩
      obtain ⟨e, he, hname⟩ := List.mem_map.mp hmem
      rcases hrest.eq_or_new he with rfl | hunseen
      · exact hnew (hname ▸ hd)
      · exact hunseen (List.mem_cons_of_mem _ (hname ▸ hd))

/-- A walk leaves an origin out only when its name has been seen. -/
theorem mem_or_seen (h : Walk t visited d chain) (he : e ∈ chain) (hlinks : Links t e origin) :
    origin ∈ chain ∨ origin.name ∈ visited := by
  induction h with
  | ends h => exact Or.inr (h origin (List.mem_singleton.mp he ▸ hlinks))
  | @goes visited d next rest hnext hnew hrest ih =>
      have hmem : next ∈ rest := List.mem_of_mem_head? hrest.head?_eq
      rcases List.mem_cons.mp he with rfl | he
      · rw [hlinks.unique hnext]
        exact Or.inl (List.mem_cons_of_mem _ hmem)
      rcases ih he with hrest | hseen
      · exact Or.inl (List.mem_cons_of_mem _ hrest)
      rcases List.mem_cons.mp hseen with hname | hseen
      · -- two that are found by the same name are the same
        have heq : origin = next :=
          Option.some.inj (hlinks.find?_eq.symm.trans (hname ▸ hnext.find?_eq))
        exact Or.inl (List.mem_cons_of_mem _ (heq ▸ hmem))
      · exact Or.inr hseen

end Walk

/-- The chain of a visible declaration is the walk that has seen the declaration itself only. -/
theorem walk_originChain (t : SymbolTable) (start : Declaration) :
    Walk t [start.name] start (originChain t start) :=
  walk_chainFrom _ _

/-- **An origin chain is everything that can be reached.** -/
theorem mem_originChain_iff (hstart : t.find? start.name = some start) :
    d ∈ originChain t start ↔ Reaches t start d := by
  have hwalk := walk_originChain t start
  refine ⟨hwalk.reaches, fun h => ?_⟩
  have hmem : start ∈ originChain t start := List.mem_of_mem_head? hwalk.head?_eq
  induction h with
  | refl => exact hmem
  | tail _ hlinks ih =>
      refine (hwalk.mem_or_seen ih hlinks).elim id fun hseen => ?_
      -- the only name seen is the one that the walk started at
      have heq := hlinks.find?_eq
      rw [List.mem_singleton.mp hseen, hstart] at heq
      exact Option.some.inj heq ▸ hmem

theorem followsOrigins_originChain (hw : t.WellFormed) (hstart : t.find? start.name = some start) :
    FollowsOrigins t start (originChain t start) where
  head := (walk_originChain t start).head?_eq
  linked := (walk_originChain t start).isChain
  nodup := (walk_originChain t start).nodup_names List.mem_cons_self
  mem_iff _ := mem_originChain_iff hstart
  length_le := by
    have hnodup := (walk_originChain t start).nodup_names List.mem_cons_self
    refine (hnodup.of_map.subperm fun d hd => ?_).length_le
    exact (SymbolTable.mem_visible_iff hw).mpr
      (Reaches.find?_eq ((mem_originChain_iff hstart).mp hd) hstart)

/-! ## Selecting -/

/-- What a chain reads as the scope of a declaration: the scope that a lookup records, or else the
one that the declaration states. -/
def HasScope (t : SymbolTable) (d : Declaration) (scope : Name) : Prop :=
  (∃ usage, d.annotation? Vocabulary.contributionScope = some usage ∧
      Scope.Gives t usage scope) ∨
    d.annotation? Vocabulary.contributionScope = none ∧
      ∃ stated, Scope.resolve t d = .ok stated ∧ stated.marker = scope

/-- A lookup belongs to the merge of a scope. -/
structure Belongs (t : SymbolTable) (scope : Name) (exclusions : List Name)
    (lookup : Declaration) : Prop where
  visible : t.find? lookup.name = some lookup
  isLookup : lookup.isLookup = true
  topLevel : lookup.parent = none
  inScope : ∃ d, Reaches t lookup d ∧ HasScope t d scope
  avoids : ∀ d, Reaches t lookup d → d.name ∉ exclusions
  /-- For a subcomponent, the last of the chain is its factory: nothing around that is excluded. -/
  outside : lookup.isSubcomponentLookup = true →
    ∀ last parent, (originChain t lookup).getLast? = some last → last.parent = some parent →
      parent ∉ exclusions

variable {lookup : Declaration} {scope : Name} {exclusions others : List Name}

theorem chainScope?_eq_some_iff : chainScope? t d = some scope ↔ HasScope t d scope := by
  unfold chainScope? HasScope
  cases d.annotation? Vocabulary.contributionScope with
  | some usage => simp [Scope.ofArgument?_eq_some_iff]
  | none =>
      unfold Scope.resolve?
      cases Scope.resolve t d <;> simp [Except.toOption]

theorem reachesScope_iff (hvisible : t.find? lookup.name = some lookup) :
    reachesScope t scope (originChain t lookup) = true ↔
      ∃ d, Reaches t lookup d ∧ HasScope t d scope := by
  simp only [reachesScope, List.any_eq_true, beq_iff_eq, chainScope?_eq_some_iff,
    mem_originChain_iff hvisible]

theorem inExcludedSubcomponent_eq_false_iff {chain : List Declaration} :
    inExcludedSubcomponent exclusions lookup chain = false ↔
      (lookup.isSubcomponentLookup = true →
        ∀ last parent, chain.getLast? = some last → last.parent = some parent →
          parent ∉ exclusions) := by
  rw [inExcludedSubcomponent, Bool.and_eq_false_imp]
  refine imp_congr_right fun _ => ?_
  simp only [Option.any_eq_false, Option.bind_eq_some_iff, forall_exists_index, and_imp]
  refine ⟨fun h last parent hlast hparent => ?_, fun h parent last hlast hparent => ?_⟩
  · simpa using h parent last hlast hparent
  · simpa using h last parent hlast hparent

theorem selects_iff_reaches (hvisible : t.find? lookup.name = some lookup) :
    selects t scope exclusions lookup = true ↔
      (∃ d, Reaches t lookup d ∧ HasScope t d scope) ∧
        (∀ d, Reaches t lookup d → d.name ∉ exclusions) ∧
        (lookup.isSubcomponentLookup = true →
          ∀ last parent, (originChain t lookup).getLast? = some last →
            last.parent = some parent → parent ∉ exclusions) := by
  have havoids : (originChain t lookup).any (fun d => exclusions.contains d.name) = false ↔
      ∀ d, Reaches t lookup d → d.name ∉ exclusions := by
    simp only [List.any_eq_false, mem_originChain_iff hvisible, List.contains_iff_mem]
  rw [selects, Bool.and_eq_true, Bool.and_eq_true, Bool.not_eq_true', Bool.not_eq_true',
    reachesScope_iff hvisible, havoids, inExcludedSubcomponent_eq_false_iff, and_assoc]

/-- **A merge selects what belongs to it.** -/
theorem mem_select_iff (hw : t.WellFormed) :
    lookup ∈ select t scope exclusions ↔ Belongs t scope exclusions lookup := by
  rw [select, List.mem_filter, mem_lookups_iff hw]
  refine ⟨?_, ?_⟩
  · rintro ⟨⟨hvisible, hlookup, htop⟩, hselects⟩
    obtain ⟨hscope, havoids, houtside⟩ := (selects_iff_reaches hvisible).mp hselects
    exact ⟨hvisible, hlookup, htop, hscope, havoids, houtside⟩
  · rintro ⟨hvisible, hlookup, htop, hscope, havoids, houtside⟩
    exact ⟨⟨hvisible, hlookup, htop⟩,
      (selects_iff_reaches hvisible).mpr ⟨hscope, havoids, houtside⟩⟩

theorem pairwise_lt_lookups (hw : t.WellFormed) :
    (lookups t).Pairwise fun a b => a.name.text < b.name.text := by
  have hle : (lookups t).Pairwise fun a b => a.name.le b.name :=
    (SymbolTable.pairwise_le_mergeSort _).filter _
  have hne : (lookups t).Pairwise fun a b => a.name ≠ b.name :=
    List.pairwise_map.mp (nodup_names_lookups hw)
  refine (hle.and hne).imp ?_
  rintro a b ⟨hle, hne⟩
  have hle : a.name.text ≤ b.name.text := of_decide_eq_true hle
  by_contra hlt
  exact hne (congrArg Name.mk (String.le_antisymm hle (String.not_lt.mp hlt)))

/-! ## How exclusions add up -/

/-- Whoever excludes less leaves out less. -/
theorem Belongs.of_subset (h : Belongs t scope exclusions lookup) (hsub : others ⊆ exclusions) :
    Belongs t scope others lookup :=
  { h with
    avoids := fun d hd hmem => h.avoids d hd (hsub hmem)
    outside := fun hfactory last parent hlast hparent hmem =>
      h.outside hfactory last parent hlast hparent (hsub hmem) }

theorem belongs_union_iff : Belongs t scope (exclusions ∪ others) lookup ↔
    Belongs t scope exclusions lookup ∧ Belongs t scope others lookup := by
  refine ⟨fun h => ⟨?_, ?_⟩, fun ⟨h, h'⟩ => ?_⟩
  · exact h.of_subset fun _ hmem => List.mem_union_iff.mpr (Or.inl hmem)
  · exact h.of_subset fun _ hmem => List.mem_union_iff.mpr (Or.inr hmem)
  · exact { h with
      avoids := fun d hd hmem =>
        (List.mem_union_iff.mp hmem).elim (h.avoids d hd) (h'.avoids d hd)
      outside := fun hfactory last parent hlast hparent hmem =>
        (List.mem_union_iff.mp hmem).elim (h.outside hfactory last parent hlast hparent)
          (h'.outside hfactory last parent hlast hparent) }

theorem select_union (hw : t.WellFormed) : select t scope (exclusions ∪ others) =
    select t scope exclusions ∩ select t scope others := by
  have hinter : select t scope exclusions ∩ select t scope others =
      (lookups t).filter fun d =>
        (select t scope others).elem d && selects t scope exclusions d :=
    List.filter_filter
  rw [hinter, select]
  refine List.filter_congr fun d hd => ?_
  have hlisted : ∀ es, selects t scope es d = true ↔ Belongs t scope es d := fun es => by
    rw [← mem_select_iff hw, select, List.mem_filter, and_iff_right hd]
  rw [Bool.eq_iff_iff, Bool.and_eq_true, List.elem_iff, hlisted, mem_select_iff hw, hlisted,
    belongs_union_iff, and_comm]

theorem not_belongs_cons (hvisible : t.find? lookup.name = some lookup)
    (hd : d ∈ originChain t lookup) : ¬ Belongs t scope (d.name :: exclusions) lookup :=
  fun h => h.avoids d ((mem_originChain_iff hvisible).mp hd) List.mem_cons_self

end Merge

namespace SymbolTable

open Merge

/-- **The lookups that a merge selects are decided by what they reach**, in whatever way their
origins are linked. -/
theorem selection_follows_origins (ops : List Operation) :
    (∀ lookup, (run ops).find? lookup.name = some lookup →
        FollowsOrigins (run ops) lookup (originChain (run ops) lookup)) ∧
      ∀ scope exclusions,
        (select (run ops) scope exclusions).Pairwise (fun a b => a.name.text < b.name.text) ∧
        (∀ lookup, lookup ∈ select (run ops) scope exclusions ↔
          Belongs (run ops) scope exclusions lookup) ∧
        (∀ others, select (run ops) scope (exclusions ∪ others) =
          select (run ops) scope exclusions ∩ select (run ops) scope others) ∧
        ∀ lookup ∈ select (run ops) scope exclusions, ∀ d ∈ originChain (run ops) lookup,
          lookup ∉ select (run ops) scope (d.name :: exclusions) := by
  have hw : (run ops).WellFormed := (history_run ops).pairwise_apart
  refine ⟨fun lookup => followsOrigins_originChain hw, fun scope exclusions =>
    ⟨(pairwise_lt_lookups hw).filter _, fun _ => mem_select_iff hw, fun _ => select_union hw, ?_⟩⟩
  intro lookup hselected d hd
  rw [mem_select_iff hw] at hselected ⊢
  exact not_belongs_cons hselected.visible hd

end SymbolTable

/-! ## A sample

Two lookups that each name the other one as its origin. -/

namespace Sample

open Vocabulary Merge SymbolTable

/-- A lookup for the scope of the application, with an origin. -/
def linked (simple : String) (origin : Name) : Declaration :=
  { Declaration.topLevel .interface lookupNamespace simple with
    annotations := [forScope contributionScope], origin := some origin }

def left : Declaration := linked "Left" (Name.inPackage lookupNamespace "Right")

def right : Declaration := linked "Right" left.name

def circular : List Operation :=
  [.addFile { id := ⟨"Circular.kt"⟩, declarations := [left, right] }]

/-- Each is on the chain of the other, and to leave out one leaves out both. -/
theorem circle_selected_and_left_out :
    (right ∈ originChain (run circular) left ∧ left ∈ originChain (run circular) right) ∧
      left ∈ select (run circular) appScope [] ∧
      left ∉ select (run circular) appScope [right.name] := by
  have hleft : (run circular).find? left.name = some left := by decide
  have hright : (run circular).find? right.name = some right := by decide
  obtain ⟨hchains, hselects⟩ := selection_follows_origins circular
  have hmem : right ∈ originChain (run circular) left :=
    ((hchains left hleft).mem_iff right).mpr (.single ⟨by decide, right.name, rfl, hright⟩)
  have hselected : left ∈ select (run circular) appScope [] := by
    refine ((hselects appScope []).2.1 left).mpr
      ⟨hleft, by decide, rfl, ⟨left, .refl, Or.inl ⟨_, rfl, Or.inl rfl⟩⟩, ?_, ?_⟩
    · exact fun _ _ => List.not_mem_nil
    · exact fun _ _ _ _ _ => List.not_mem_nil
  refine ⟨⟨hmem, ?_⟩, hselected, (hselects appScope []).2.2.2 left hselected right hmem⟩
  exact ((hchains right hright).mem_iff left).mpr (.single ⟨by decide, left.name, rfl, hleft⟩)

end Sample

end ScopeMerge
