import FfiBindings.Proofs.Binding.TypeTable
import Mathlib.Data.Finset.Card

/-!
Layers of aliases, one over the other. A table that is made by layers has the last tag of each key, and below the keys
of the layers what the first table has (`Layered`); a layer over such a table makes such a table
(`Layered.layer`), so all tables of a sequence are of this kind, each by the maps that were layered up to it
(`layers_answer`). A designator is stripped before it is looked up and the keys are not, so a key with a blank at an
end is counted and never found. A map with an unknown tag is refused as a whole, and the refusal names its unknown
tags (`layer_of_unknown`).
-/

set_option autoImplicit false
set_option relaxedAutoImplicit false

namespace FfiBindings

/-- Designators with the tags that are to stand for them, each designator once. -/
structure AliasMap where
  entries : List (String × String)
  nodup : (entries.map Prod.fst).Nodup

namespace AliasMap

def keys (aliases : AliasMap) : List String :=
  aliases.entries.map Prod.fst

/-- Every tag names a type. -/
def IsKnown (aliases : AliasMap) : Prop :=
  ∀ entry ∈ aliases.entries, ∃ type : FfiType, type.tag = entry.2

/-- The refusal names the tags of the map that name no type, in order and each once. -/
structure Refuses (aliases : AliasMap) (unknown : TypeTable.UnknownTags) : Prop where
  sorted : unknown.tags.Pairwise (· < ·)
  mem_iff : ∀ tag, tag ∈ unknown.tags ↔
    (∃ key, (key, tag) ∈ aliases.entries) ∧ ∀ type : FfiType, type.tag ≠ tag

end AliasMap

namespace TypeTable

variable {base table next : TypeTable} {aliases : AliasMap} {maps : List AliasMap} {key tag : String}
  {type : FfiType}

def keys (table : TypeTable) : List String :=
  table.entries.map Prod.fst

/-- The last of the maps that has the key gives it the tag. -/
def IsLastTag (maps : List AliasMap) (key tag : String) : Prop :=
  ∃ before aliases after, maps = before ++ aliases :: after ∧ (key, tag) ∈ aliases.entries ∧
    ∀ later ∈ after, key ∉ later.keys

/-- No map has the key. -/
def IsFree (maps : List AliasMap) (key : String) : Prop :=
  ∀ aliases ∈ maps, key ∉ aliases.keys

/-- The table holds the last tag of each key of the maps, and for all other keys what the table below holds. -/
structure Layered (base : TypeTable) (maps : List AliasMap) (table : TypeTable) : Prop where
  known : ∀ aliases ∈ maps, aliases.IsKnown
  mem_iff : ∀ key type, (key, type) ∈ table.entries ↔
    IsLastTag maps key type.tag ∨ IsFree maps key ∧ (key, type) ∈ base.entries

/-- How a table that was made by layers answers: the last map that has the stripped designator as a key comes first,
then the table below, and what neither has is as wide as a machine word. -/
structure Answers (base : TypeTable) (maps : List AliasMap) (table : TypeTable) : Prop where
  layered : ∀ designator tag, IsLastTag maps (Text.strip designator) tag → (table.resolve designator).tag = tag
  below : ∀ designator type, IsFree maps (Text.strip designator) → (Text.strip designator, type) ∈ base.entries →
    table.resolve designator = type
  otherwise : ∀ designator, IsFree maps (Text.strip designator) → Text.strip designator ∉ base.keys →
    (table.resolve designator).tag = "u64"
  known : ∀ designator, (table.resolve designator).tag ∈ FfiType.all.map FfiType.tag
  contains_iff : ∀ designator, table.contains designator = true ↔
    (∃ tag, IsLastTag maps (Text.strip designator) tag) ∨
      IsFree maps (Text.strip designator) ∧ Text.strip designator ∈ base.keys
  size : table.size = (base.keys ++ maps.flatMap AliasMap.keys).toFinset.card

/-! ### The last tag of a key -/

theorem isLastTag_concat :
    IsLastTag (maps ++ [aliases]) key tag ↔
      (key, tag) ∈ aliases.entries ∨ key ∉ aliases.keys ∧ IsLastTag maps key tag := by
  constructor
  · rintro ⟨before, given, after, hmaps, hgiven, hlater⟩
    rcases List.eq_nil_or_concat after with rfl | ⟨front, last, rfl⟩
    · obtain ⟨-, rfl⟩ := List.append_singleton_inj.1 hmaps
      exact .inl hgiven
    · rw [List.concat_eq_append, ← List.cons_append, ← List.append_assoc] at hmaps
      obtain ⟨rfl, rfl⟩ := List.append_singleton_inj.1 hmaps
      rw [List.concat_eq_append] at hlater
      exact .inr ⟨hlater _ (by simp), before, given, front, rfl, hgiven, fun later hmem =>
        hlater later (List.mem_append_left _ hmem)⟩
  · rintro (hgiven | ⟨hfree, before, given, after, rfl, hgiven, hlater⟩)
    · exact ⟨maps, aliases, [], rfl, hgiven, by simp⟩
    · refine ⟨before, given, after ++ [aliases], by simp, hgiven, fun later hmem => ?_⟩
      rcases List.mem_append.1 hmem with hafter | hlast
      · exact hlater later hafter
      · rwa [List.mem_singleton.1 hlast]

theorem isFree_concat : IsFree (maps ++ [aliases]) key ↔ IsFree maps key ∧ key ∉ aliases.keys := by
  simp [IsFree, or_imp, forall_and]

/-- A key of the maps has a last tag. -/
theorem exists_isLastTag (h : ¬ IsFree maps key) : ∃ tag, IsLastTag maps key tag := by
  induction maps using List.reverseRecOn with
  | nil => exact absurd (fun _ hmem => absurd hmem List.not_mem_nil) h
  | append_singleton maps aliases ih =>
    by_cases hkey : key ∈ aliases.keys
    · obtain ⟨⟨_, tag⟩, hmem, rfl⟩ := List.mem_map.1 hkey
      exact ⟨tag, isLastTag_concat.2 (.inl hmem)⟩
    · obtain ⟨tag, hlast⟩ := ih fun hfree => h (isFree_concat.2 ⟨hfree, hkey⟩)
      exact ⟨tag, isLastTag_concat.2 (.inr ⟨hkey, hlast⟩)⟩

theorem IsLastTag.not_isFree (h : IsLastTag maps key tag) : ¬ IsFree maps key := by
  obtain ⟨before, given, after, rfl, hgiven, -⟩ := h
  intro hfree
  exact hfree given (by simp) (List.mem_map.2 ⟨_, hgiven, rfl⟩)

theorem IsLastTag.exists_type (h : IsLastTag maps key tag) (hknown : ∀ aliases ∈ maps, aliases.IsKnown) :
    ∃ type : FfiType, type.tag = tag := by
  obtain ⟨before, given, after, rfl, hgiven, -⟩ := h
  exact hknown given (by simp) _ hgiven

/-! ### One layer -/

theorem ofTag?_eq_some_iff : FfiType.ofTag? tag = some type ↔ type.tag = tag :=
  ⟨FfiType.tag_of_ofTag?, fun h => h ▸ FfiType.ofTag?_tag type⟩

theorem mem_filterMap_typed {entries : List (String × String)} :
    (key, type) ∈ entries.filterMap typed? ↔ (key, type.tag) ∈ entries := by
  rw [List.mem_filterMap]
  constructor
  · rintro ⟨⟨other, given⟩, hmem, htyped⟩
    obtain ⟨found, hfound, heq⟩ := Option.map_eq_some_iff.1 htyped
    obtain ⟨rfl, rfl⟩ := Prod.mk.inj heq
    exact FfiType.tag_of_ofTag? hfound ▸ hmem
  · intro hmem
    exact ⟨_, hmem, by rw [typed?, FfiType.ofTag?_tag]; rfl⟩

/-- The typed entries of a map still have each key once. -/
theorem nodup_filterMap_typed (aliases : AliasMap) :
    ((aliases.entries.filterMap typed?).map Prod.fst).Nodup := by
  refine aliases.nodup.sublist ?_
  induction aliases.entries with
  | nil => exact .slnil
  | cons entry rest ih =>
    rw [List.filterMap_cons]
    cases htyped : typed? entry with
    | none => exact ih.trans (List.sublist_cons_self _ _)
    | some pair =>
      obtain ⟨type, -, rfl⟩ := Option.map_eq_some_iff.1 htyped
      exact ih.cons_cons entry.1

theorem keys_filterMap_typed (h : aliases.IsKnown) :
    (aliases.entries.filterMap typed?).lookup key = none ↔ key ∉ aliases.keys := by
  rw [Option.eq_none_iff_forall_ne_some]
  constructor
  · intro hnone hkey
    obtain ⟨⟨_, tag⟩, hmem, rfl⟩ := List.mem_map.1 hkey
    obtain ⟨type, rfl⟩ := h _ hmem
    exact hnone type ((lookup_eq_some_iff (nodup_filterMap_typed aliases)).2 (mem_filterMap_typed.2 hmem))
  · intro hkey type hsome
    have hmem := (lookup_eq_some_iff (nodup_filterMap_typed aliases)).1 hsome
    exact hkey (List.mem_map.2 ⟨_, mem_filterMap_typed.1 hmem, rfl⟩)

theorem layer_of_isKnown (table : TypeTable) (h : aliases.IsKnown) :
    table.layer aliases.entries = .ok (table.insertAll (aliases.entries.filterMap typed?)) := by
  have hnone : ((aliases.entries.map Prod.snd).filter fun tag => (FfiType.ofTag? tag).isNone) = [] := by
    rw [List.filter_eq_nil_iff]
    intro tag htag hnone
    obtain ⟨entry, hmem, rfl⟩ := List.mem_map.1 htag
    obtain ⟨type, htype⟩ := h entry hmem
    rw [ofTag?_eq_some_iff.2 htype] at hnone
    exact absurd hnone (by simp)
  rw [layer, hnone]
  rfl

/-- A layer answers first, so what a table holds after it is what the map says, and for all other keys what it held
before. -/
theorem mem_insertAll_typed (h : aliases.IsKnown) :
    (key, type) ∈ (table.insertAll (aliases.entries.filterMap typed?)).entries ↔
      (key, type.tag) ∈ aliases.entries ∨ key ∉ aliases.keys ∧ (key, type) ∈ table.entries := by
  have hnodup := nodup_filterMap_typed aliases
  rw [← lookup_eq_some_iff (insertAll table _).nodup, insertAll_entries, lookup_foldl_put, lookup_reverse hnodup,
    Option.or_eq_some_iff, lookup_eq_some_iff hnodup, mem_filterMap_typed, keys_filterMap_typed h,
    lookup_eq_some_iff table.nodup]

/-- The step: a layer over a table that was made by layers. -/
theorem Layered.layer (h : Layered base maps table) (hknown : aliases.IsKnown) :
    ∃ next, table.layer aliases.entries = .ok next ∧ Layered base (maps ++ [aliases]) next := by
  refine ⟨_, layer_of_isKnown table hknown, ?_, ?_⟩
  · intro given hmem
    rcases List.mem_append.1 hmem with hbefore | hlast
    · exact h.known given hbefore
    · rwa [List.mem_singleton.1 hlast]
  · intro key type
    rw [mem_insertAll_typed hknown, h.mem_iff, isLastTag_concat, isFree_concat]
    tauto

theorem Layered.refl (base : TypeTable) : Layered base [] base where
  known := by simp
  mem_iff key type := by
    have hnone : ¬ IsLastTag [] key type.tag := fun hlast => hlast.not_isFree fun _ hmem => absurd hmem List.not_mem_nil
    have hfree : IsFree [] key := fun _ hmem => absurd hmem List.not_mem_nil
    simp [hnone, hfree]

/-! ### The answers -/

theorem find?_eq_some_iff {designator : String} :
    table.find? designator = some type ↔ (Text.strip designator, type) ∈ table.entries :=
  lookup_eq_some_iff table.nodup

theorem mem_keys_iff : key ∈ table.keys ↔ ∃ type, (key, type) ∈ table.entries := by
  simp [keys]

theorem contains_eq_true_iff {designator : String} :
    table.contains designator = true ↔ Text.strip designator ∈ table.keys := by
  rw [contains, Option.isSome_iff_exists, mem_keys_iff]
  exact exists_congr fun type => find?_eq_some_iff

theorem Layered.mem_keys_iff (h : Layered base maps table) :
    key ∈ table.keys ↔ (∃ tag, IsLastTag maps key tag) ∨ IsFree maps key ∧ key ∈ base.keys := by
  simp only [TypeTable.mem_keys_iff, h.mem_iff, exists_or, exists_and_left]
  refine or_congr_left ⟨fun ⟨type, hlast⟩ => ⟨_, hlast⟩, fun ⟨tag, hlast⟩ => ?_⟩
  obtain ⟨type, rfl⟩ := hlast.exists_type h.known
  exact ⟨type, hlast⟩

/-- The keys of a table that was made by layers are those of all layers and of the table below. -/
theorem Layered.toFinset_keys (h : Layered base maps table) :
    table.keys.toFinset = (base.keys ++ maps.flatMap AliasMap.keys).toFinset := by
  ext key
  rw [List.mem_toFinset, List.mem_toFinset, h.mem_keys_iff, List.mem_append, List.mem_flatMap]
  constructor
  · rintro (⟨tag, before, given, after, rfl, hgiven, -⟩ | ⟨-, hbase⟩)
    · exact .inr ⟨given, by simp, List.mem_map.2 ⟨_, hgiven, rfl⟩⟩
    · exact .inl hbase
  · intro hmem
    by_cases hfree : IsFree maps key
    · refine .inr ⟨hfree, hmem.resolve_right ?_⟩
      rintro ⟨aliases, haliases, hkey⟩
      exact hfree aliases haliases hkey
    · exact .inl (exists_isLastTag hfree)

theorem Layered.answers (h : Layered base maps table) : Answers base maps table where
  layered designator tag hlast := by
    obtain ⟨type, rfl⟩ := hlast.exists_type h.known
    rw [resolve, find?_eq_some_iff.2 ((h.mem_iff _ _).2 (.inl hlast)), Option.getD_some]
  below designator type hfree hbase := by
    rw [resolve, find?_eq_some_iff.2 ((h.mem_iff _ _).2 (.inr ⟨hfree, hbase⟩)), Option.getD_some]
  otherwise designator hfree hbase := by
    have habsent : ¬ table.contains designator = true := by
      rw [contains_eq_true_iff, h.mem_keys_iff]
      rintro (⟨tag, hlast⟩ | ⟨-, hmem⟩)
      · exact hlast.not_isFree hfree
      · exact hbase hmem
    have hnone : table.find? designator = none := Option.not_isSome_iff_eq_none.1 habsent
    rw [resolve, hnone]
    rfl
  known designator := List.mem_map.2 ⟨_, FfiType.mem_all _, rfl⟩
  contains_iff designator := by rw [contains_eq_true_iff, h.mem_keys_iff]
  size := by
    rw [← h.toFinset_keys, keys, List.toFinset_card_of_nodup table.nodup, List.length_map, TypeTable.size]

/-! ### A refusal -/

theorem textLe_iff {first second : String} : textLe first second = true ↔ first ≤ second := by
  rw [textLe, Bool.not_eq_true', decide_eq_false_iff_not, String.not_lt]

theorem nodup_eraseDups (texts : List String) : texts.eraseDups.Nodup := by
  induction hlength : texts.length using Nat.strong_induction_on generalizing texts with
  | _ n ih =>
    subst hlength
    cases texts with
    | nil => exact List.nodup_nil
    | cons text texts =>
      rw [List.eraseDups_cons]
      refine List.nodup_cons.2 ⟨by simp, ih _ ?_ _ rfl⟩
      exact Nat.lt_succ_of_le (List.length_filter_le _ _)

theorem pairwise_sortedTags (tags : List String) : (sortedTags tags).Pairwise (· < ·) := by
  have hsorted : (sortedTags tags).Pairwise fun first second => textLe first second = true := by
    refine List.pairwise_mergeSort ?_ ?_ _
    · intro first second third hfirst hsecond
      rw [textLe_iff] at hfirst hsecond ⊢
      exact String.le_trans hfirst hsecond
    · intro first second
      rw [Bool.or_eq_true, textLe_iff, textLe_iff]
      exact String.le_total _ _
  have hnodup : (sortedTags tags).Nodup := List.nodup_mergeSort.2 (nodup_eraseDups tags)
  refine hsorted.imp₂ ?_ hnodup
  intro first second hle hne
  rw [textLe_iff] at hle
  by_contra hlt
  exact hne (String.le_antisymm hle (String.not_lt.1 hlt))

/-- A map with a tag that names no type is refused, and the refusal names all such tags of the map. -/
theorem layer_of_unknown (table : TypeTable) (h : ¬ aliases.IsKnown) :
    ∃ unknown, table.layer aliases.entries = .error unknown ∧ aliases.Refuses unknown := by
  have hunknown : ¬ ((aliases.entries.map Prod.snd).filter fun tag => (FfiType.ofTag? tag).isNone).isEmpty = true := by
    rw [List.isEmpty_iff, List.filter_eq_nil_iff]
    intro hnone
    refine h fun entry hmem => ?_
    have hsome := hnone entry.2 (List.mem_map.2 ⟨entry, hmem, rfl⟩)
    rw [Option.isNone_iff_eq_none, ← ne_eq, Option.ne_none_iff_exists'] at hsome
    obtain ⟨type, htype⟩ := hsome
    exact ⟨type, FfiType.tag_of_ofTag? htype⟩
  refine ⟨_, if_neg hunknown, pairwise_sortedTags _, fun tag => ?_⟩
  rw [sortedTags, List.mem_mergeSort, List.mem_eraseDups, List.mem_filter, Option.isNone_iff_eq_none,
    Option.eq_none_iff_forall_ne_some, List.mem_map]
  refine and_congr ?_ (forall_congr' fun type => not_congr ofTag?_eq_some_iff)
  constructor
  · rintro ⟨⟨key, _⟩, hmem, rfl⟩
    exact ⟨key, hmem⟩
  · rintro ⟨key, hmem⟩
    exact ⟨_, hmem, rfl⟩

/-! ### A sequence of layers -/

/-- The tables that come about as maps are layered one over the other, the first table first, with the refusal that ends
the sequence where one does. -/
structure Layers where
  tables : List TypeTable
  refused : Option UnknownTags := none

/-- Layers the maps over the table one after the other, and keeps every table. -/
def layers (table : TypeTable) : List AliasMap → Layers
  | [] => { tables := [table] }
  | aliases :: rest =>
    match table.layer aliases.entries with
    | .error unknown => { tables := [table], refused := some unknown }
    | .ok next => { next.layers rest with tables := table :: (next.layers rest).tables }

theorem layers_cons_of_isKnown (h : Layered base maps table) (hknown : aliases.IsKnown) (rest : List AliasMap) :
    ∃ next, Layered base (maps ++ [aliases]) next ∧
      table.layers (aliases :: rest) = { next.layers rest with tables := table :: (next.layers rest).tables } := by
  obtain ⟨next, hlayer, hnext⟩ := h.layer hknown
  exact ⟨next, hnext, by rw [layers, hlayer]⟩

theorem layers_cons_of_unknown (table : TypeTable) (h : ¬ aliases.IsKnown) (rest : List AliasMap) :
    ∃ unknown, aliases.Refuses unknown ∧
      table.layers (aliases :: rest) = { tables := [table], refused := some unknown } := by
  obtain ⟨unknown, hlayer, hrefuses⟩ := layer_of_unknown table h
  exact ⟨unknown, hrefuses, by rw [layers, hlayer]⟩

/-- The run: each table is the one that was made by the maps up to it. -/
theorem Layered.layers (h : Layered base maps table) (rest : List AliasMap) :
    ∀ i later, (table.layers rest).tables[i]? = some later → Layered base (maps ++ rest.take i) later := by
  induction rest generalizing maps table with
  | nil =>
    intro i later hlater
    obtain ⟨rfl, rfl⟩ : i = 0 ∧ table = later := by simpa [TypeTable.layers, List.getElem?_singleton] using hlater
    simpa using h
  | cons aliases rest ih =>
    intro i later hlater
    cases i with
    | zero =>
      have hfirst : (table.layers (aliases :: rest)).tables[0]? = some table := by
        rw [TypeTable.layers]
        split <;> rfl
      obtain rfl := Option.some.inj (hfirst.symm.trans hlater)
      simpa using h
    | succ i =>
      by_cases hknown : aliases.IsKnown
      · obtain ⟨next, hnext, hlayers⟩ := layers_cons_of_isKnown h hknown rest
        rw [hlayers] at hlater
        have hmade := ih hnext i later hlater
        rwa [List.append_assoc] at hmade
      · obtain ⟨unknown, -, hlayers⟩ := layers_cons_of_unknown table hknown rest
        rw [hlayers] at hlater
        exact absurd hlater (by simp)

theorem layers_of_isKnown (h : ∀ aliases ∈ maps, aliases.IsKnown) (table : TypeTable) :
    (table.layers maps).tables.length = maps.length + 1 ∧ (table.layers maps).refused = none := by
  induction maps generalizing table with
  | nil => exact ⟨rfl, rfl⟩
  | cons aliases rest ih =>
    obtain ⟨hknown, hrest⟩ := List.forall_mem_cons.1 h
    obtain ⟨next, -, hlayers⟩ := layers_cons_of_isKnown (.refl table) hknown rest
    obtain ⟨hlength, hnone⟩ := ih hrest next
    rw [hlayers]
    exact ⟨by simp [hlength], hnone⟩

/-- Later maps leave the tables that are there. -/
theorem layers_prefix (table : TypeTable) (before after : List AliasMap) :
    (table.layers before).tables <+: (table.layers (before ++ after)).tables := by
  induction before generalizing table with
  | nil =>
    cases after with
    | nil => exact List.prefix_rfl
    | cons aliases rest =>
      simp only [List.nil_append, TypeTable.layers]
      split
      · exact List.prefix_rfl
      · exact List.cons_prefix_cons.2 ⟨rfl, List.nil_prefix⟩
  | cons aliases before ih =>
    simp only [List.cons_append, TypeTable.layers]
    split
    · exact List.prefix_rfl
    · rename_i next _
      exact List.cons_prefix_cons.2 ⟨rfl, ih next⟩

/-- A map that is refused ends the sequence, and leaves the tables that were made before it. -/
theorem layers_of_unknown {before : List AliasMap} (hbefore : ∀ earlier ∈ before, earlier.IsKnown)
    (h : ¬ aliases.IsKnown) (after : List AliasMap) (table : TypeTable) :
    (table.layers (before ++ aliases :: after)).tables = (table.layers before).tables ∧
      ∃ unknown, (table.layers (before ++ aliases :: after)).refused = some unknown ∧ aliases.Refuses unknown := by
  induction before generalizing table with
  | nil =>
    obtain ⟨unknown, hrefuses, hlayers⟩ := layers_cons_of_unknown table h after
    rw [List.nil_append, hlayers]
    exact ⟨rfl, unknown, rfl, hrefuses⟩
  | cons earlier before ih =>
    obtain ⟨hknown, hrest⟩ := List.forall_mem_cons.1 hbefore
    obtain ⟨next, hlayer, -⟩ := (Layered.refl table).layer hknown
    obtain ⟨htables, unknown, hrefused, hrefuses⟩ := ih hrest next
    simp only [List.cons_append, TypeTable.layers, hlayer, htables]
    exact ⟨trivial, unknown, hrefused, hrefuses⟩

/-- Layers of aliases. Of a table and the maps that are layered over it one after the other, every table that comes
about answers by the maps up to it, and later maps leave it as it is; the last tag of a key counts, then the first
table, then the width of a machine word. If all tags are known, every map gives a table; else the first map with an
unknown tag is refused with its unknown tags, and the tables before it stay. -/
theorem layers_answer (base : TypeTable) (maps : List AliasMap) :
    (base.layers maps).tables.head? = some base ∧
    (∀ i table, (base.layers maps).tables[i]? = some table → Answers base (maps.take i) table) ∧
    (∀ before after, maps = before ++ after → (base.layers before).tables <+: (base.layers maps).tables) ∧
    ((∀ aliases ∈ maps, aliases.IsKnown) →
      (base.layers maps).refused = none ∧
        ∃ derived, (base.layers maps).tables[maps.length]? = some derived ∧ Answers base maps derived) ∧
    ∀ before aliases after, maps = before ++ aliases :: after → (∀ earlier ∈ before, earlier.IsKnown) →
      ¬ aliases.IsKnown →
        (base.layers maps).tables = (base.layers before).tables ∧
        (base.layers maps).tables.length = before.length + 1 ∧
        ∃ unknown, (base.layers maps).refused = some unknown ∧ aliases.Refuses unknown := by
  have hmade := (Layered.refl base).layers maps
  refine ⟨?_, fun i table htable => (hmade i table htable).answers, ?_, fun hknown => ?_, ?_⟩
  · cases maps with
    | nil => rfl
    | cons aliases rest =>
      rw [TypeTable.layers]
      split <;> rfl
  · rintro before after rfl
    exact base.layers_prefix before after
  · obtain ⟨hlength, hnone⟩ := layers_of_isKnown hknown base
    obtain ⟨derived, hderived⟩ : ∃ derived, (base.layers maps).tables[maps.length]? = some derived :=
      ⟨_, List.getElem?_eq_getElem (by omega)⟩
    have hanswers := (hmade _ _ hderived).answers
    rw [List.nil_append, List.take_length] at hanswers
    exact ⟨hnone, derived, hderived, hanswers⟩
  · rintro before aliases after rfl hbefore hunknown
    obtain ⟨htables, hrefused⟩ := layers_of_unknown hbefore hunknown after base
    exact ⟨htables, by rw [htables, (layers_of_isKnown hbefore base).1], hrefused⟩

namespace Sample

theorem nodup_wide : ([("usize", "u64"), (" padded ", "u8")].map Prod.fst).Nodup := by decide

theorem nodup_narrow : ([("usize", "u32"), ("u8", "ptr")].map Prod.fst).Nodup := by decide

theorem nodup_unknown : ([("a", "word"), ("b", "u8"), ("c", "byte"), ("d", "word")].map Prod.fst).Nodup := by decide

/-- A map with a key that has blanks at its ends. -/
def wide : AliasMap := ⟨_, nodup_wide⟩

/-- A map that gives another tag to a key of the map below it, and one to a key of the standard table. -/
def narrow : AliasMap := ⟨_, nodup_narrow⟩

def unknownTags : AliasMap := ⟨_, nodup_unknown⟩

theorem isKnown_wide : wide.IsKnown := by
  intro entry hmem
  simp only [wide, List.mem_cons, List.not_mem_nil, or_false] at hmem
  rcases hmem with rfl | rfl
  · exact ⟨.u64, rfl⟩
  · exact ⟨.u8, rfl⟩

theorem isKnown_narrow : narrow.IsKnown := by
  intro entry hmem
  simp only [narrow, List.mem_cons, List.not_mem_nil, or_false] at hmem
  rcases hmem with rfl | rfl
  · exact ⟨.u32, rfl⟩
  · exact ⟨.ptr, rfl⟩

theorem not_isKnown_unknownTags : ¬ unknownTags.IsKnown := by
  intro hknown
  obtain ⟨type, htype⟩ := hknown ("a", "word") (by decide)
  cases type <;> exact absurd htype (by decide)

end Sample

/-- The second map wins over the first and over the standard table, the first table of the sequence answers as it did,
and a third map with unknown tags is refused. -/
theorem layers_answer_overridden :
    (∃ derived, (standard.layers [Sample.wide, Sample.narrow]).tables[2]? = some derived ∧
      (derived.resolve " usize ").tag = "u32" ∧ (derived.resolve "u8").tag = "ptr" ∧
      derived.contains " padded " = false ∧ derived.size = 17) ∧
    (∃ between, (standard.layers [Sample.wide, Sample.narrow]).tables[1]? = some between ∧
      (between.resolve "usize").tag = "u64") ∧
    ∃ unknown, (standard.layers [Sample.wide, Sample.unknownTags, Sample.narrow]).refused = some unknown ∧
      unknown.tags.Pairwise (· < ·) ∧ ∀ tag, tag ∈ unknown.tags ↔ tag = "word" ∨ tag = "byte" := by
  have hmaps : ∀ aliases ∈ [Sample.wide, Sample.narrow], aliases.IsKnown := by
    simp [Sample.isKnown_wide, Sample.isKnown_narrow]
  obtain ⟨-, hanswers, -, hderived, -⟩ := layers_answer standard [Sample.wide, Sample.narrow]
  obtain ⟨-, derived, hlast, hlayered⟩ := hderived hmaps
  have hpadded : ¬ derived.contains " padded " = true := by
    have hstrip : Text.strip " padded " = "padded" := by decide +kernel
    rw [hlayered.contains_iff, hstrip]
    rintro (⟨tag, hgiven⟩ | ⟨-, hmem⟩)
    · refine hgiven.not_isFree ?_
      simp only [IsFree, List.forall_mem_cons]
      decide
    · exact absurd hmem (by decide)
  obtain ⟨between, hbetween⟩ :
      ∃ between, (standard.layers [Sample.wide, Sample.narrow]).tables[1]? = some between := by
    rw [← Option.isSome_iff_exists]
    decide +kernel
  have hbelow := (hanswers 1 between hbetween).layered "usize" "u64"
    ⟨[], Sample.wide, [], rfl, by decide, by simp⟩
  obtain ⟨-, -, -, -, hrefusal⟩ := layers_answer standard [Sample.wide, Sample.unknownTags, Sample.narrow]
  obtain ⟨-, -, unknown, hrefused, hrefuses⟩ := hrefusal [Sample.wide] Sample.unknownTags [Sample.narrow] rfl
    (by simp [Sample.isKnown_wide]) Sample.not_isKnown_unknownTags
  refine ⟨⟨derived, hlast, ?_, ?_, by simpa using hpadded, ?_⟩, ⟨between, hbetween, hbelow⟩, unknown, hrefused, ?_⟩
  · exact hlayered.layered " usize " "u32" ⟨[Sample.wide], Sample.narrow, [], rfl, by decide +kernel, by simp⟩
  · exact hlayered.layered "u8" "ptr" ⟨[Sample.wide], Sample.narrow, [], rfl, by decide +kernel, by simp⟩
  · rw [hlayered.size]
    decide +kernel
  · refine ⟨hrefuses.sorted, fun tag => (hrefuses.mem_iff tag).trans ⟨?_, ?_⟩⟩
    · rintro ⟨⟨key, hmem⟩, hnone⟩
      simp only [Sample.unknownTags, List.mem_cons, Prod.mk.injEq, List.not_mem_nil, or_false] at hmem
      rcases hmem with ⟨-, rfl⟩ | ⟨-, rfl⟩ | ⟨-, rfl⟩ | ⟨-, rfl⟩
      · exact .inl rfl
      · exact absurd rfl (hnone .u8)
      · exact .inr rfl
      · exact .inl rfl
    · rintro (rfl | rfl)
      · exact ⟨⟨"a", by decide⟩, fun type => by cases type <;> decide⟩
      · exact ⟨⟨"c", by decide⟩, fun type => by cases type <;> decide⟩

end TypeTable

end FfiBindings
